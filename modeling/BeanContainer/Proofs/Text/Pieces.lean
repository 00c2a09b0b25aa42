/-
# Texts with commas

The pieces between the commas of a text. It makes no difference to them whether the blanks around the
text are taken away before the text is split; and texts without commas and without blanks around them,
joined by commas, are the pieces of what they are joined to.

Key definitions: `Text.pieces`, `Text.Trimmed`, `Text.IsItem`.
Key theorems: `Text.trimmed_trimChars`, `Text.trimmed_intercalate`, `Schema.commaPieces_eq`,
`Text.pieces_intercalate`, `Text.plain_intercalate`.
-/
import BeanContainer.Binding
import BeanContainer.Proofs.Template

namespace BeanContainer
namespace Text

variable {cs blanks : List Char}

/-- The pieces between the commas of a text, without the blanks around them; a blank text has none. -/
def pieces (raw : String) : List String :=
  if (trim raw).isEmpty then []
  else (raw.toList.splitOn ',').map fun piece => String.ofList (trimChars piece)

/-! ### Blanks around a text -/

theorem dropBlanks_append (h : ∀ c ∈ blanks, isBlank c = true) (cs : List Char) :
    dropBlanks (blanks ++ cs) = dropBlanks cs :=
  List.dropWhile_append_of_pos h

theorem trimChars_append_left (h : ∀ c ∈ blanks, isBlank c = true) (cs : List Char) :
    trimChars (blanks ++ cs) = trimChars cs := by
  unfold trimChars
  rw [dropBlanks_append h]

theorem dropBlanks_eq_nil_iff : dropBlanks cs = [] ↔ ∀ c ∈ cs, isBlank c = true :=
  List.dropWhile_eq_nil_iff

theorem trimChars_append_right (h : ∀ c ∈ blanks, isBlank c = true) (cs : List Char) :
    trimChars (cs ++ blanks) = trimChars cs := by
  have hr : ∀ c ∈ blanks.reverse, isBlank c = true := by simpa using h
  unfold trimChars
  by_cases hb : ∀ c ∈ cs, isBlank c = true
  · have hall : ∀ c ∈ cs ++ blanks, isBlank c = true := List.forall_mem_append.mpr ⟨hb, h⟩
    rw [dropBlanks_eq_nil_iff.mpr hb, dropBlanks_eq_nil_iff.mpr hall]
  · have hd : dropBlanks (cs ++ blanks) = dropBlanks cs ++ blanks := by
      unfold dropBlanks
      rw [List.dropWhile_append, if_neg]
      rwa [List.isEmpty_iff, List.dropWhile_eq_nil_iff]
    rw [hd, List.reverse_append, dropBlanks_append hr]

/-- Without the leading blanks a text is what is left without the blanks at both ends, and blanks. -/
theorem exists_dropBlanks (cs : List Char) : ∃ back, dropBlanks cs = trimChars cs ++ back ∧
    ∀ c ∈ back, isBlank c = true := by
  have hback : (dropBlanks cs).reverse.takeWhile isBlank ++ dropBlanks (dropBlanks cs).reverse =
      (dropBlanks cs).reverse := List.takeWhile_append_dropWhile
  refine ⟨((dropBlanks cs).reverse.takeWhile isBlank).reverse, ?_,
    fun c hc => List.all_eq_true.mp List.all_takeWhile c (List.mem_reverse.mp hc)⟩
  rw [trimChars, ← List.reverse_append, hback, List.reverse_reverse]

theorem exists_trimChars (cs : List Char) : ∃ front back, cs = front ++ (trimChars cs ++ back) ∧
    (∀ c ∈ front, isBlank c = true) ∧ ∀ c ∈ back, isBlank c = true := by
  have hfront : cs.takeWhile isBlank ++ dropBlanks cs = cs := List.takeWhile_append_dropWhile
  obtain ⟨back, hback, hblank⟩ := exists_dropBlanks cs
  refine ⟨cs.takeWhile isBlank, back, ?_,
    fun c hc => List.all_eq_true.mp List.all_takeWhile c hc, hblank⟩
  rw [← hback, hfront]

/-- Characters are all blank if nothing is left without the blanks around them. -/
theorem trimChars_eq_nil_iff : trimChars cs = [] ↔ ∀ c ∈ cs, isBlank c = true := by
  constructor
  · intro h
    obtain ⟨front, back, hcs, hf, hb⟩ := exists_trimChars cs
    rw [h, List.nil_append] at hcs
    rw [hcs]
    exact List.forall_mem_append.mpr ⟨hf, hb⟩
  · intro h
    unfold trimChars
    rw [dropBlanks_eq_nil_iff.mpr h]
    rfl

/-- No blank stands at either end of the characters. -/
structure Trimmed (cs : List Char) : Prop where
  front : ∀ c ∈ cs.head?, isBlank c = false
  back : ∀ c ∈ cs.getLast?, isBlank c = false

theorem Trimmed.eq (h : Trimmed cs) : trimChars cs = cs :=
  trimChars_eq_self h.front h.back

theorem head?_dropBlanks (cs : List Char) : ∀ c ∈ (dropBlanks cs).head?, isBlank c = false := by
  intro c hc
  have hnot := List.head?_dropWhile_not isBlank cs
  rw [dropBlanks, Option.mem_def] at hc
  rwa [hc] at hnot

theorem trimmed_trimChars (cs : List Char) : Trimmed (trimChars cs) where
  front := by
    intro c hc
    obtain ⟨back, hback, -⟩ := exists_dropBlanks cs
    refine head?_dropBlanks cs c ?_
    rw [hback, List.head?_append_of_ne_nil _ (List.ne_nil_of_mem (List.mem_of_mem_head? hc))]
    exact hc
  back := by
    unfold trimChars
    rw [List.getLast?_reverse]
    exact head?_dropBlanks _

/-- Where no blank ends a text, the last character stays. -/
theorem getLast?_trimChars (h : ∀ c ∈ cs.getLast?, isBlank c = false) :
    (trimChars cs).getLast? = cs.getLast? := by
  obtain ⟨front, back, hcs, hfront, hback⟩ := exists_trimChars cs
  have hlast : cs.getLast? = (back.getLast?.or (trimChars cs).getLast?).or front.getLast? := by
    conv_lhs => rw [hcs, List.getLast?_append, List.getLast?_append]
  have hnot : ∀ c ∈ cs.getLast?, isBlank c ≠ true := fun c hc => by rw [h c hc]; exact nofun
  rcases hb : back.getLast? with _ | c
  · rw [hb, Option.none_or] at hlast
    rcases ht : (trimChars cs).getLast? with _ | c
    · rw [ht, Option.none_or] at hlast
      rcases hf : front.getLast? with _ | c
      · rw [hlast, hf]
      · exact absurd (hfront c (List.mem_of_mem_getLast? hf)) (hnot c (hlast.trans hf))
    · rw [hlast, ht, Option.some_or]
  · rw [hb, Option.some_or, Option.some_or] at hlast
    exact absurd (hback c (List.mem_of_mem_getLast? hb)) (hnot c hlast)

/-! ### Pieces between commas -/

theorem ne_comma_of_isBlank {c : Char} (h : isBlank c = true) : c ≠ ',' := by
  rintro rfl
  exact absurd h (by decide)

/-- Blanks in front of a text belong to its first piece, -/
theorem splitOn_append_left (h : ∀ c ∈ blanks, isBlank c = true) (cs : List Char) :
    ∃ first rest, cs.splitOn ',' = first :: rest ∧
      (blanks ++ cs).splitOn ',' = (blanks ++ first) :: rest := by
  induction blanks with
  | nil =>
    obtain ⟨first, rest, hs⟩ := List.exists_cons_of_ne_nil (List.splitOn_ne_nil ',' cs)
    exact ⟨first, rest, hs, hs⟩
  | cons c blanks ih =>
    rw [List.forall_mem_cons] at h
    obtain ⟨first, rest, hs, hb⟩ := ih h.2
    refine ⟨first, rest, hs, ?_⟩
    have hc : (c == ',') = false := beq_false_of_ne (ne_comma_of_isBlank h.1)
    rw [List.cons_append, List.splitOn_cons_eq_if_modifyHead, hc, hb]
    rfl

/-- and those behind it to its last one. -/
theorem splitOn_append_right (h : ∀ c ∈ blanks, isBlank c = true) (cs : List Char) :
    ∃ front last, cs.splitOn ',' = front ++ [last] ∧
      (cs ++ blanks).splitOn ',' = front ++ [last ++ blanks] := by
  induction cs with
  | nil =>
    have hb : blanks.splitOn ',' = [blanks] :=
      List.splitOn_eq_singleton fun hm => ne_comma_of_isBlank (h _ hm) rfl
    exact ⟨[], [], rfl, hb⟩
  | cons c cs ih =>
    obtain ⟨front, last, hs, hb⟩ := ih
    rw [List.cons_append, List.splitOn_cons_eq_if_modifyHead, List.splitOn_cons_eq_if_modifyHead, hs, hb]
    by_cases hc : (c == ',') = true
    · rw [if_pos hc, if_pos hc]
      exact ⟨[] :: front, last, rfl, rfl⟩
    · rw [if_neg hc, if_neg hc]
      rcases front with _ | ⟨first, front⟩
      · exact ⟨[], c :: last, rfl, rfl⟩
      · exact ⟨(c :: first) :: front, last, rfl, rfl⟩

theorem splitOn_trimChars (cs : List Char) :
    ((trimChars cs).splitOn ',').map trimChars = (cs.splitOn ',').map trimChars := by
  obtain ⟨front, back, hcs, hf, hb⟩ := exists_trimChars cs
  obtain ⟨first, rest, hs, hl⟩ := splitOn_append_left hf (trimChars cs ++ back)
  obtain ⟨more, last, hs', hr⟩ := splitOn_append_right hb (trimChars cs)
  have hwhole : cs.splitOn ',' = (front ++ first) :: rest := by rw [hcs]; exact hl
  rw [hs']
  calc (more ++ [last]).map trimChars
      = (more ++ [last ++ back]).map trimChars := by simp [trimChars_append_right hb]
    _ = (first :: rest).map trimChars := by rw [← hr, hs]
    _ = (cs.splitOn ',').map trimChars := by
        rw [hwhole, List.map_cons, List.map_cons, trimChars_append_left hf]

theorem not_mem_of_mem_splitOn {part : List Char} (h : part ∈ cs.splitOn ',') : ',' ∉ part := by
  induction cs generalizing part with
  | nil =>
    rw [List.splitOn_nil, List.mem_singleton] at h
    rw [h]
    exact List.not_mem_nil
  | cons c cs ih =>
    rw [List.splitOn_cons_eq_if_modifyHead] at h
    obtain ⟨first, rest, hs⟩ := List.exists_cons_of_ne_nil (List.splitOn_ne_nil ',' cs)
    rw [hs] at h ih
    split at h
    · rcases List.mem_cons.mp h with rfl | hm
      · exact List.not_mem_nil
      · exact ih hm
    · next hc =>
      rcases List.mem_cons.mp h with rfl | hm
      · rw [List.mem_cons, not_or]
        exact ⟨fun he => hc (beq_iff_eq.mpr he.symm), ih List.mem_cons_self⟩
      · exact ih (List.mem_cons_of_mem _ hm)

section

variable {first last : List Char} {parts : List (List Char)}

theorem head?_intercalate (h : first ≠ []) :
    ([','].intercalate (first :: parts)).head? = first.head? := by
  rcases parts with _ | ⟨second, rest⟩
  · rw [List.intercalate_singleton]
  · rw [List.intercalate_cons_cons, List.append_assoc, List.head?_append_of_ne_nil _ h]

theorem getLast?_intercalate (h : last ≠ []) :
    ([','].intercalate (parts ++ [last])).getLast? = last.getLast? := by
  induction parts with
  | nil => rw [List.nil_append, List.intercalate_singleton]
  | cons part rest ih =>
    rw [List.cons_append, List.intercalate_cons_of_ne_nil (by simp), List.getLast?_append, ih]
    rw [List.getLast?_eq_some_getLast h, Option.some_or]

/-- Characters that no blank stands around, joined by commas, have no blanks around them. -/
theorem trimmed_intercalate (h : ∀ part ∈ parts, Trimmed part ∧ part ≠ []) :
    Trimmed ([','].intercalate parts) where
  front := by
    rcases parts with _ | ⟨first, rest⟩
    · exact nofun
    · obtain ⟨hfirst, hne⟩ := h first List.mem_cons_self
      rw [head?_intercalate hne]
      exact hfirst.front
  back := by
    rcases parts.eq_nil_or_concat' with rfl | ⟨front, last, rfl⟩
    · exact nofun
    · obtain ⟨hlast, hne⟩ := h last List.mem_concat_self
      rw [getLast?_intercalate hne]
      exact hlast.back

end

end Text

/-- The pieces of a list's text are those between its commas. -/
theorem Schema.commaPieces_eq (raw : String) : commaPieces raw = Text.pieces raw := by
  have hmap : ∀ parts : List (List Char), parts.map (fun piece => String.ofList (Text.trimChars piece)) =
      (parts.map Text.trimChars).map String.ofList := fun parts => by simp
  unfold commaPieces Text.pieces Text.trim
  split
  · next he =>
    rw [he]
    rfl
  · next cs hne =>
    rw [if_neg (by simpa [String.isEmpty_iff] using hne), hmap, hmap, Text.splitOn_trimChars]

/-! ### Placeholders -/

namespace Template

/-- Where a character stands that is no part of `${`, no placeholder opens across it. -/
theorem plain_append_cons {front back : List Char} {c : Char} (hf : Plain front) (hb : Plain back)
    (hd : c ≠ '$') (ho : c ≠ '{') : Plain (front ++ c :: back) := by
  induction front with
  | nil =>
    intro hi
    rcases List.infix_cons_iff.mp hi with hp | hi
    · exact hd (List.cons_prefix_cons.mp hp).1.symm
    · exact hb hi
  | cons first front ih =>
    intro hi
    rcases List.infix_cons_iff.mp hi with hp | hi
    · obtain ⟨rfl, hrest⟩ := List.cons_prefix_cons.mp hp
      rcases front with _ | ⟨second, front⟩
      · exact ho (List.cons_prefix_cons.mp hrest).1.symm
      · obtain ⟨rfl, -⟩ := List.cons_prefix_cons.mp hrest
        exact hf (List.prefix_append ['$', '{'] front).isInfix
    · exact ih (fun hi => hf (List.infix_cons hi)) hi

/-- Texts without placeholders, joined by commas, have none. -/
theorem plain_intercalate {parts : List (List Char)} (h : ∀ part ∈ parts, Plain part) :
    Plain ([','].intercalate parts) := by
  induction parts with
  | nil => simp [Plain]
  | cons first rest ih =>
    rw [List.forall_mem_cons] at h
    rcases rest with _ | ⟨second, rest⟩
    · simpa using h.1
    · have hcons : [','].intercalate (first :: second :: rest) =
          first ++ ',' :: [','].intercalate (second :: rest) := by simp [List.intercalate]
      rw [hcons]
      exact plain_append_cons h.1 (ih h.2) (by decide) (by decide)

end Template

/-! ### Items -/

namespace Text

theorem toList_intercalate (items : List String) :
    (",".intercalate items).toList = [','].intercalate (items.map String.toList) := by
  rw [String.toList_intercalate]
  rfl

/-- A text that can stand in a list: no comma, no placeholder, and no blanks around it. -/
structure IsItem (text : String) : Prop where
  comma : ',' ∉ text.toList
  plain : Template.Plain text.toList
  trimmed : trimChars text.toList = text.toList

/-- Items joined by commas are the pieces of the text. One empty item alone is no piece. -/
theorem pieces_intercalate {items : List String} (h : ∀ item ∈ items, IsItem item) (hne : items ≠ [])
    (hs : items ≠ [""]) : pieces (",".intercalate items) = items := by
  have hchars := toList_intercalate items
  have hsplit : ([','].intercalate (items.map String.toList)).splitOn ',' = items.map String.toList :=
    List.splitOn_intercalate ',' (by simpa using fun item hi => (h item hi).comma) (by simpa using hne)
  have hblank : trimChars (",".intercalate items).toList ≠ [] := by
    rw [hchars]
    rcases items with _ | ⟨first, _ | ⟨second, rest⟩⟩
    · exact absurd rfl hne
    · intro hb
      rw [List.forall_mem_singleton] at h
      have hfirst : first.toList = [] := by rw [← h.trimmed]; simpa using hb
      exact hs (by rw [String.toList_eq_nil_iff.mp hfirst])
    · intro hb
      have hcomma : isBlank ',' = true := trimChars_eq_nil_iff.mp hb ',' (by simp)
      exact absurd hcomma (by decide)
  unfold pieces trim
  rw [if_neg (by simpa [String.isEmpty_iff] using hblank), hchars, hsplit, List.map_map]
  conv_rhs => rw [← List.map_id items]
  refine List.map_congr_left fun item hi => ?_
  simp [(h item hi).trimmed]

/-- Items joined by commas have no placeholder. -/
theorem plain_intercalate {items : List String} (h : ∀ item ∈ items, IsItem item) :
    Template.Plain (",".intercalate items).toList := by
  rw [toList_intercalate]
  exact Template.plain_intercalate (List.forall_mem_map.mpr fun item hi => (h item hi).plain)

end Text
end BeanContainer
