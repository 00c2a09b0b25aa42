/-
# Autowire tags in writing

A tag that was read is written as its selectors with commas between them, and with a question mark if it
is optional. The blanks that reading takes away are not written, and nothing that is written is read in
another way: neither a colon or a question mark at the end of a selector nor a blank within one.

Key definitions: `AutowireTag.items`, `AutowireTag.IsBody`.
Key theorems: `Selector.shown_parse`, `AutowireTag.parse_of_body`, `AutowireTag.parse_shown`.
-/
import BeanContainer.Proofs.Text.Pieces
import BeanContainer.Selector

namespace BeanContainer

/-! ### Selectors -/

namespace Selector

/-- A selector is written as the text that it was read from, without the blanks around it. -/
theorem shown_parse (text : String) : (parse text).shown = Text.trim text := by
  unfold parse Text.trim
  dsimp only
  split_ifs with hall hcolon
  · rw [hall]
    rfl
  · obtain ⟨name, hname⟩ := List.getLast?_eq_some_iff.mp hcolon
    rw [hname, List.dropLast_concat, String.ofList_append]
    rfl
  · rfl

theorem parse_trim (text : String) : parse (Text.trim text) = parse text := by
  unfold parse Text.trim
  rw [String.toList_ofList, (Text.trimmed_trimChars _).eq]

end Selector

namespace AutowireTag

variable {body : List Char} {optional : Bool} {tag : AutowireTag} {text : String}

/-! ### Items -/

/-- The characters between the commas of `body`, without the blanks around them. -/
def items (body : List Char) : List (List Char) :=
  (body.splitOn ',').map Text.trimChars

theorem items_ne_nil (body : List Char) : items body ≠ [] := fun h =>
  List.splitOn_ne_nil ',' body (List.map_eq_nil_iff.mp h)

theorem trimmed_of_mem_items {item : List Char} (h : item ∈ items body) : Text.Trimmed item := by
  obtain ⟨part, -, rfl⟩ := List.mem_map.mp h
  exact Text.trimmed_trimChars part

/-- The items of a text, joined by commas, are the items of what they are joined to. -/
theorem items_intercalate (body : List Char) : items ([','].intercalate (items body)) = items body := by
  have hcomma : ∀ item ∈ items body, ',' ∉ item := by
    intro item hi
    obtain ⟨part, hp, rfl⟩ := List.mem_map.mp hi
    exact fun hm => Text.not_mem_of_mem_splitOn hp ((Text.trimChars_infix part).subset hm)
  conv_lhs => rw [items, List.splitOn_intercalate ',' hcomma (items_ne_nil body)]
  conv_rhs => rw [← List.map_id (items body)]
  exact List.map_congr_left fun item hi => (trimmed_of_mem_items hi).eq

/-- The items of a text that ends in no blank end as the text does. -/
theorem getLast?_items (h : Text.Trimmed body) (hne : [] ∉ items body) :
    ([','].intercalate (items body)).getLast? = body.getLast? := by
  obtain hnil | ⟨front, last, hs⟩ := (body.splitOn ',').eq_nil_or_concat'
  · exact absurd hnil (List.splitOn_ne_nil ',' body)
  have hitems : items body = front.map Text.trimChars ++ [Text.trimChars last] := by
    rw [items, hs, List.map_append, List.map_singleton]
  have hitem : Text.trimChars last ≠ [] := fun he => hne (by rw [hitems, he]; simp)
  have hlast : last ≠ [] := by
    rintro rfl
    exact hitem rfl
  have hbody : last.getLast? = body.getLast? := by
    have hjoined : List.intercalate [','] (body.splitOn ',') = body := List.intercalate_splitOn ','
    rw [hs] at hjoined
    rw [← hjoined, Text.getLast?_intercalate hlast]
  rw [hitems, Text.getLast?_intercalate hitem, ← hbody]
  exact Text.getLast?_trimChars (hbody ▸ h.back)

/-- The selectors of a text are read off its items, none of which may be empty. -/
theorem parseSelectors_eq (h : body ≠ []) : parseSelectors body =
    if [] ∈ items body then .error (.usage (.emptySelector (String.ofList body)))
    else .ok ((items body).map fun item => Selector.parse (String.ofList item)) := by
  unfold parseSelectors items
  rw [if_neg (by simpa using h)]
  generalize Fault.usage _ = fault
  induction body.splitOn ',' with
  | nil => rfl
  | cons part rest ih =>
    have hparse : Selector.parse (String.ofList (Text.trimChars part)) =
        Selector.parse (String.ofList part) := by
      simpa [Text.trim] using Selector.parse_trim (String.ofList part)
    rw [List.mapM_cons, ih, List.map_cons, List.map_cons, hparse]
    by_cases hp : Text.trimChars part = []
    · rw [hp, if_pos List.mem_cons_self]
      rfl
    · have hmem : [] ∈ Text.trimChars part :: rest.map Text.trimChars ↔
          [] ∈ rest.map Text.trimChars := by
        rw [List.mem_cons, or_iff_right (Ne.symm hp)]
      rw [if_neg (by simpa using hp)]
      simp only [hmem]
      split <;> rfl

/-! ### Bodies -/

/-- What stands in a tag for its selectors: no blanks around it, and no question mark behind it unless
the tag is optional. -/
structure IsBody (body : List Char) (optional : Bool) : Prop where
  trimmed : Text.Trimmed body
  mark : optional = false → body.getLast? ≠ some '?'

/-- The tag with the selectors of a body. -/
def ofBody (body : List Char) (optional : Bool) : Except Fault AutowireTag := do
  let selectors ← parseSelectors body
  if 1 < selectors.count .all then .error (.usage (.repeatedStar (String.ofList body)))
  else return ⟨selectors, optional⟩

/-- What is written behind the selectors. -/
def mark (optional : Bool) : List Char := if optional then ['?'] else []

theorem parse_eq_ofBody (text : String) : ∃ body optional, IsBody body optional ∧
    parse text = ofBody body optional := by
  by_cases h : (Text.trimChars text.toList).getLast? = some '?'
  · refine ⟨Text.trimChars (Text.trimChars text.toList).dropLast, true,
      ⟨Text.trimmed_trimChars _, nofun⟩, ?_⟩
    simp only [parse, h]
    rfl
  · refine ⟨Text.trimChars text.toList, false, ⟨Text.trimmed_trimChars _, fun _ => h⟩, ?_⟩
    simp only [parse, h]
    rfl

theorem parse_of_body (h : IsBody body optional) (ht : text.toList = body ++ mark optional) :
    parse text = ofBody body optional := by
  have htrim : Text.trimChars (body ++ mark optional) = body ++ mark optional := by
    cases optional with
    | false => simpa [mark] using h.trimmed.eq
    | true =>
      refine Text.trimChars_eq_self (fun c hc => ?_) fun c hc => ?_
      · rcases body with _ | ⟨first, rest⟩
        · cases hc
          decide
        · exact h.trimmed.front c hc
      · rw [mark, if_pos rfl, List.getLast?_concat] at hc
        cases hc
        decide
  unfold parse
  rw [ht, htrim]
  cases optional with
  | false =>
    have hmark : (body ++ mark false).getLast? ≠ some '?' := by simpa [mark] using h.mark rfl
    simp only [hmark]
    simp [mark, ofBody]
  | true =>
    have hmark : (body ++ mark true).getLast? = some '?' := List.getLast?_concat
    have hbody : (body ++ mark true).dropLast = body := List.dropLast_concat
    simp only [hmark, hbody, h.trimmed.eq]
    simp [ofBody]

theorem shown_toList (selectors : List Selector) (optional : Bool) :
    (shown ⟨selectors, optional⟩).toList =
      [','].intercalate (selectors.map fun selector => selector.shown.toList) ++ mark optional := by
  unfold shown mark
  rw [String.toList_append, Text.toList_intercalate, List.map_map]
  cases optional <;> simp [Function.comp_def]

theorem ofBody_eq_ok_iff : ofBody body optional = .ok tag ↔
    ∃ selectors, parseSelectors body = .ok selectors ∧ selectors.count .all ≤ 1 ∧
      tag = ⟨selectors, optional⟩ := by
  have hcount : ∀ selectors : List Selector, parseSelectors body = .ok selectors →
      ofBody body optional =
        if 1 < selectors.count .all then .error (.usage (.repeatedStar (String.ofList body)))
        else .ok ⟨selectors, optional⟩ := fun selectors hs => by
    unfold ofBody
    rw [hs]
    rfl
  constructor
  · intro h
    rcases hs : parseSelectors body with fault | selectors
    · unfold ofBody at h
      rw [hs] at h
      cases h
    · rw [hcount selectors hs] at h
      split_ifs at h with hc
      cases h
      exact ⟨selectors, rfl, Nat.not_lt.mp hc, rfl⟩
  · rintro ⟨selectors, hs, hc, rfl⟩
    rw [hcount selectors hs, if_neg (Nat.not_lt.mpr hc)]

/-- Selectors that were read are written as a body from which they are read. -/
theorem exists_written {selectors : List Selector} (hb : IsBody body optional)
    (h : parseSelectors body = .ok selectors) :
    ∃ written, IsBody written optional ∧
      (shown ⟨selectors, optional⟩).toList = written ++ mark optional ∧
      parseSelectors written = .ok selectors := by
  by_cases hnil : body = []
  · subst hnil
    cases h
    exact ⟨[], hb, shown_toList [] optional, rfl⟩
  rw [parseSelectors_eq hnil] at h
  split_ifs at h with hempty
  cases h
  have hlast := getLast?_items hb.trimmed hempty
  have hne : [','].intercalate (items body) ≠ [] := fun he => by
    rw [he, List.getLast?_nil, eq_comm, List.getLast?_eq_none_iff] at hlast
    exact hnil hlast
  have hitems : (items body).map (fun item => (Selector.parse (String.ofList item)).shown.toList) =
      items body := by
    conv_rhs => rw [← List.map_id (items body)]
    refine List.map_congr_left fun item hi => ?_
    rw [Selector.shown_parse, Text.trim, String.toList_ofList, String.toList_ofList,
      (trimmed_of_mem_items hi).eq, id]
  refine ⟨[','].intercalate (items body), ⟨?_, fun ho => hlast ▸ hb.mark ho⟩, ?_, ?_⟩
  · exact Text.trimmed_intercalate fun item hi =>
      ⟨trimmed_of_mem_items hi, fun he => hempty (he ▸ hi)⟩
  · rw [shown_toList, List.map_map]
    exact congrArg (fun parts => [','].intercalate parts ++ mark optional) hitems
  · rw [parseSelectors_eq hne, items_intercalate, if_neg hempty]

/-- **Tags survive printing.** A tag that was read is read again from its own text. -/
theorem parse_shown (h : parse text = .ok tag) : parse tag.shown = .ok tag := by
  obtain ⟨body, optional, hb, hp⟩ := parse_eq_ofBody text
  obtain ⟨selectors, hs, hcount, rfl⟩ := ofBody_eq_ok_iff.mp (hp.symm.trans h)
  obtain ⟨written, hw, ht, hs'⟩ := exists_written hb hs
  rw [parse_of_body hw ht]
  exact ofBody_eq_ok_iff.mpr ⟨selectors, hs', hcount, rfl⟩

/-- An optional tag with blanks, a colon and question marks at the ends of its selectors. -/
theorem parse_shown_marks :
    parse " a?b , Repo :,* , c d? ? " =
      .ok ⟨[.named "a?b", .typeNamed "Repo ", .all, .named "c d?"], true⟩ ∧
    parse "a?b,Repo :,*,c d??" =
      .ok ⟨[.named "a?b", .typeNamed "Repo ", .all, .named "c d?"], true⟩ := by
  have hread : parse " a?b , Repo :,* , c d? ? " =
      .ok ⟨[.named "a?b", .typeNamed "Repo ", .all, .named "c d?"], true⟩ := by decide +kernel
  have hshown : shown ⟨[.named "a?b", .typeNamed "Repo ", .all, .named "c d?"], true⟩ =
      "a?b,Repo :,*,c d??" := by decide +kernel
  have hagain := parse_shown hread
  rw [hshown] at hagain
  exact ⟨hread, hagain⟩

end AutowireTag
end BeanContainer
