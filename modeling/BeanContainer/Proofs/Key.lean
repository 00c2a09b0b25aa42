/-
# Keys and their segments

A key that the segments spell is read as these segments, and what is read spells the key: reading
and writing are inverse to each other. No segment reaches across the place where two texts are put
together: a text relative to another one reads as the segments of both, and is no key if one of the
two is none. So the canonical key of a path leads to the path.

Key definitions: `Segment.Valid`, `Key.Continues`, `Label.Valid`.
Key theorems: `Key.continuation?_append`, `Key.split_join`, `Key.split_eq_ok`, `Key.split_exact`,
`Key.under_assoc`, `Key.segments?_under`, `Key.split_under_eq_ok`, `Key.labels?_toSegment`.
-/
import BeanContainer.Key
import Mathlib.Data.List.TakeWhile

namespace BeanContainer

/-! ### Segments -/

/-- A segment that can stand in a key. -/
def Segment.Valid : Segment → Prop
  | .name text => text ≠ "" ∧ ∀ c ∈ text.toList, Key.isNameChar c = true
  | .position digits => digits ≠ "" ∧ ∀ c ∈ digits.toList, Key.isDigit c = true

namespace Key

variable {segment first : Segment} {segments rest : List Segment} {cs ds : List Char}

theorem continuation?_position {digits : List Char} (hne : digits ≠ [])
    (hd : ∀ c ∈ digits, isDigit c = true) (cs : List Char) :
    continuation? ('[' :: (digits ++ ']' :: cs)) =
      (continuation? cs).map (.position (String.ofList digits) :: ·) := by
  have ht : (digits ++ ']' :: cs).takeWhile isDigit = digits := by
    rw [List.takeWhile_append_of_pos hd, List.takeWhile_cons_of_neg (by decide), List.append_nil]
  have hr : (digits ++ ']' :: cs).dropWhile isDigit = ']' :: cs := by
    rw [List.dropWhile_append_of_pos hd, List.dropWhile_cons_of_neg (by decide)]
  rw [continuation?]
  split
  · next h => exact absurd (ht.symm.trans h) hne
  · next h _ =>
    rw [hr] at h
    cases h
    rw [ht]
  · next h => exact absurd hr (h cs)

/-- A bracket needs digits behind it and another bracket behind them. -/
theorem continuation?_unclosed
    (h : cs.takeWhile isDigit = [] ∨ ∀ rest, cs.dropWhile isDigit ≠ ']' :: rest) :
    continuation? ('[' :: cs) = none := by
  rw [continuation?]
  split
  · rfl
  · next hclosed hdigits =>
    rcases h with h | h
    · exact absurd h hdigits
    · exact absurd hclosed (h _)
  · rfl

/-- A run of characters that does not go on with `ds` is the same without `ds`. -/
theorem span_append {holds : Char → Bool} (h : ∀ c ∈ ds.head?, holds c = false)
    (cs : List Char) : (cs ++ ds).takeWhile holds = cs.takeWhile holds ∧
      (cs ++ ds).dropWhile holds = cs.dropWhile holds ++ ds := by
  induction cs with
  | nil =>
    rcases ds with _ | ⟨d, ds⟩
    · exact ⟨rfl, rfl⟩
    · simp [h d rfl]
  | cons c cs ih =>
    rw [List.cons_append, List.takeWhile_cons, List.takeWhile_cons, List.dropWhile_cons,
      List.dropWhile_cons, ih.1, ih.2]
    split <;> exact ⟨rfl, rfl⟩

/-- The characters, if there are any, start with a segment. -/
def Continues (cs : List Char) : Prop := ∀ c ∈ cs.head?, c = '.' ∨ c = '['

theorem Continues.head?_eq_false (h : Continues cs) (holds : Char → Bool)
    (hdot : holds '.' = false) (hbracket : holds '[' = false) : ∀ c ∈ cs.head?, holds c = false := by
  intro c hc
  obtain rfl | rfl := h c hc
  · exact hdot
  · exact hbracket

theorem continues_flatMap (segments : List Segment) :
    Continues (segments.flatMap (·.continuation.toList)) := by
  rcases segments with _ | ⟨text | digits, rest⟩
  · exact nofun
  · simp [Continues, Segment.continuation]
  · simp [Continues, Segment.continuation]

/-- No segment reaches across a dot or an opening bracket. So two texts that meet there are read one
after the other, and as nothing if one of the two is. -/
theorem continuation?_append (h : Continues ds) (cs : List Char) :
    continuation? (cs ++ ds) =
      (continuation? cs).bind fun front => (continuation? ds).map (front ++ ·) := by
  have hname := span_append (h.head?_eq_false isNameChar (by decide) (by decide))
  have hdigit := span_append (h.head?_eq_false isDigit (by decide) (by decide))
  have hcons : ∀ (first : Segment) (front back : Option (List Segment)),
      (front.bind fun front => back.map (front ++ ·)).map (first :: ·) =
        (front.map (first :: ·)).bind fun front => back.map (front ++ ·) := by
    rintro first (_ | front) (_ | back) <;> rfl
  fun_induction continuation? cs with
  | case1 => simp
  | case2 cs hempty =>
    rw [List.cons_append, continuation?, (hname cs).1, hempty]
    rfl
  | case3 cs hne ih =>
    rw [List.cons_append, continuation?, (hname cs).1, (hname cs).2, ih, ← hcons]
    split
    · next hempty => exact absurd hempty hne
    · rfl
  | case4 cs hempty => exact continuation?_unclosed (.inl ((hdigit cs).1.trans hempty))
  | case5 cs rest hclosed _ hne ih =>
    have hd : ∀ c ∈ cs.takeWhile isDigit, isDigit c = true := List.all_eq_true.mp List.all_takeWhile
    have hcs : cs ++ ds = cs.takeWhile isDigit ++ ']' :: (rest ++ ds) := by
      rw [← List.cons_append, ← hclosed, ← List.append_assoc, List.takeWhile_append_dropWhile]
    rw [List.cons_append, hcs, continuation?_position hne hd, ih, hcons]
  | case6 cs _ hopen =>
    -- a bracket that is open in front stays open: what follows does not start with `]`
    rw [List.cons_append]
    refine continuation?_unclosed (.inr fun rest hrest => ?_)
    rw [(hdigit cs).2] at hrest
    rcases List.append_eq_cons_iff.mp hrest with ⟨-, hds⟩ | ⟨more, hcs, -⟩
    · obtain hc | hc := h ']' (by rw [hds]; rfl) <;> cases hc
    · exact hopen more hcs
  | case7 c cs hdot hbracket =>
    rw [List.cons_append, continuation?]
    · rfl
    · exact hdot
    · exact hbracket

theorem continuation?_continuation (hs : segment.Valid) :
    continuation? segment.continuation.toList = some [segment] := by
  obtain text | digits := segment
  · have hne : text.toList ≠ [] := fun he => hs.1 (String.toList_eq_nil_iff.mp he)
    have hcs : (Segment.name text).continuation.toList = '.' :: text.toList := by
      simp [Segment.continuation]
    rw [hcs, continuation?, List.takeWhile_eq_self_iff.mpr hs.2, List.dropWhile_eq_nil_iff.mpr hs.2,
      continuation?]
    split
    · next hempty => exact absurd hempty hne
    · rw [String.ofList_toList]
      rfl
  · have hne : digits.toList ≠ [] := fun he => hs.1 (String.toList_eq_nil_iff.mp he)
    have hcs : (Segment.position digits).continuation.toList = '[' :: (digits.toList ++ [']']) := by
      simp [Segment.continuation]
    rw [hcs, continuation?_position hne hs.2, String.ofList_toList, continuation?]
    rfl

theorem continuation?_flatMap (hs : ∀ segment ∈ segments, segment.Valid) :
    continuation? (segments.flatMap (·.continuation.toList)) = some segments := by
  induction segments with
  | nil => rw [List.flatMap_nil, continuation?]
  | cons first rest ih =>
    rw [List.forall_mem_cons] at hs
    rw [List.flatMap_cons, continuation?_append (continues_flatMap rest),
      continuation?_continuation hs.1, ih hs.2]
    rfl

theorem toList_join_cons (first : Segment) (rest : List Segment) :
    (join (first :: rest)).toList =
      first.shown.toList ++ rest.flatMap (·.continuation.toList) := by
  rw [join, String.toList_append, String.toList_join, List.flatMap_map]

theorem exists_cons_of_valid {text : String} (h : (Segment.name text).Valid) :
    ∃ c cs, text.toList = c :: cs ∧ c ≠ '[' := by
  rcases ht : text.toList with _ | ⟨c, cs⟩
  · exact absurd (String.toList_eq_nil_iff.mp ht) h.1
  · refine ⟨c, cs, rfl, ?_⟩
    rintro rfl
    exact absurd (h.2 '[' (ht ▸ List.mem_cons_self)) (by decide)

/-- A segment reads the same at the front of a key as behind a dot. -/
theorem segments?_shown (hs : first.Valid) (cs : List Char) :
    segments? (first.shown.toList ++ cs) = continuation? (first.continuation.toList ++ cs) := by
  obtain text | digits := first
  · obtain ⟨c, name, ht, hne⟩ := exists_cons_of_valid hs
    simp [Segment.shown, Segment.continuation, ht, segments?, hne]
  · simp [Segment.shown, Segment.continuation, segments?]

theorem segments?_join (hs : ∀ segment ∈ segments, segment.Valid) :
    segments? (join segments).toList = some segments := by
  rcases segments with _ | ⟨first, rest⟩
  · rfl
  · have h := continuation?_flatMap hs
    rwa [List.flatMap_cons, ← segments?_shown (List.forall_mem_cons.mp hs).1, ← toList_join_cons] at h

theorem split_eq_ok_iff_segments? {key : String} :
    split key = .ok segments ↔ segments? key.toList = some segments := by
  unfold split
  cases segments? key.toList <;> simp

theorem split_eq_error_iff_segments? {key : String} :
    split key = .error (.invalidKey key) ↔ segments? key.toList = none := by
  unfold split
  cases segments? key.toList <;> simp

/-- The key that the segments spell is read as the segments. -/
theorem split_join (hs : ∀ segment ∈ segments, segment.Valid) :
    split (join segments) = .ok segments :=
  split_eq_ok_iff_segments?.mpr (segments?_join hs)

/-! ### What is read -/

theorem valid_takeWhile {holds : Char → Bool} (h : cs.takeWhile holds ≠ []) :
    String.ofList (cs.takeWhile holds) ≠ "" ∧
      ∀ c ∈ (String.ofList (cs.takeWhile holds)).toList, holds c = true := by
  refine ⟨fun he => h ?_, fun c hc => ?_⟩
  · simpa using congrArg String.toList he
  · rw [String.toList_ofList] at hc
    exact List.all_eq_true.mp List.all_takeWhile c hc

/-- What is read behind another segment spells the characters. -/
theorem of_continuation? (h : continuation? cs = some segments) :
    (∀ segment ∈ segments, segment.Valid) ∧ segments.flatMap (·.continuation.toList) = cs := by
  fun_induction continuation? cs generalizing segments with
  | case1 =>
    cases h
    exact ⟨nofun, rfl⟩
  | case2 | case4 | case6 | case7 => cases h
  | case3 cs hname ih =>
    obtain ⟨rest, hr, rfl⟩ := Option.map_eq_some_iff.mp h
    obtain ⟨hvalid, hspelt⟩ := ih hr
    refine ⟨List.forall_mem_cons.mpr ⟨valid_takeWhile hname, hvalid⟩, ?_⟩
    rw [List.flatMap_cons, hspelt]
    simp [Segment.continuation, List.takeWhile_append_dropWhile]
  | case5 cs rest hclosed _ hdigits ih =>
    obtain ⟨more, hr, rfl⟩ := Option.map_eq_some_iff.mp h
    obtain ⟨hvalid, hspelt⟩ := ih hr
    refine ⟨List.forall_mem_cons.mpr ⟨valid_takeWhile hdigits, hvalid⟩, ?_⟩
    have hcs : cs.takeWhile isDigit ++ ']' :: rest = cs := by
      rw [← hclosed, List.takeWhile_append_dropWhile]
    rw [List.flatMap_cons, hspelt]
    simp [Segment.continuation, hcs]

theorem of_segments? (h : segments? cs = some segments) :
    (∀ segment ∈ segments, segment.Valid) ∧ (join segments).toList = cs := by
  unfold segments? at h
  split at h
  · cases h
    exact ⟨nofun, rfl⟩
  · obtain ⟨hvalid, hspelt⟩ := of_continuation? h
    refine ⟨hvalid, ?_⟩
    -- behind a bracket a key starts with a position
    rcases segments with _ | ⟨text | digits, rest⟩
    · cases hspelt
    · simp [Segment.continuation] at hspelt
    · rw [toList_join_cons, ← hspelt]
      rfl
  · obtain ⟨hvalid, hspelt⟩ := of_continuation? h
    refine ⟨hvalid, ?_⟩
    -- the dot in front is that of a name
    rcases segments with _ | ⟨text | digits, rest⟩
    · cases hspelt
    · rw [toList_join_cons]
      simpa [Segment.continuation, Segment.shown] using hspelt
    · simp [Segment.continuation] at hspelt

/-- A key is read as segments if they are valid and spell it. -/
theorem split_eq_ok {key : String} : split key = .ok segments ↔
    (∀ segment ∈ segments, segment.Valid) ∧ join segments = key := by
  constructor
  · intro h
    obtain ⟨hvalid, hspelt⟩ := of_segments? (split_eq_ok_iff_segments?.mp h)
    exact ⟨hvalid, String.toList_inj.mp hspelt⟩
  · rintro ⟨hvalid, rfl⟩
    exact split_join hvalid

theorem split_cases (key : String) :
    (∃ segments, split key = .ok segments) ∨ split key = .error (.invalidKey key) := by
  unfold split
  split
  · exact .inl ⟨_, rfl⟩
  · exact .inr rfl

/-- The texts that are refused. -/
theorem split_eq_error {key : String} : split key = .error (.invalidKey key) ↔
    ∀ segments, (∀ segment ∈ segments, segment.Valid) → join segments ≠ key := by
  refine ⟨fun h segments hvalid hspelt => ?_, fun h => ?_⟩
  · rw [split_eq_ok.mpr ⟨hvalid, hspelt⟩] at h
    cases h
  · rcases split_cases key with ⟨segments, hs⟩ | hs
    · obtain ⟨hvalid, hspelt⟩ := split_eq_ok.mp hs
      exact absurd hspelt (h segments hvalid)
    · exact hs

/-- **Reading and writing keys are inverse to each other.** A text is read as segments if and only
if they are valid and spell it; a text that no valid segments spell is refused, with the whole text
in the fault. -/
theorem split_exact (key : String) :
    (∀ segments, split key = .ok segments ↔
      (∀ segment ∈ segments, segment.Valid) ∧ join segments = key) ∧
    (split key = .error (.invalidKey key) ↔
      ∀ segments, (∀ segment ∈ segments, segment.Valid) → join segments ≠ key) := by
  exact ⟨fun segments => split_eq_ok, split_eq_error⟩

/-- A position keeps its zeros, and after a dot no bracket can stand. -/
theorem split_exact_position :
    split "a[007].b" = .ok [.name "a", .position "007", .name "b"] ∧
      join [.name "a", .position "007", .name "b"] = "a[007].b" ∧
      ∀ segments, (∀ segment ∈ segments, segment.Valid) → join segments ≠ "a.[0]" := by
  have h : split "a[007].b" = .ok [.name "a", .position "007", .name "b"] := by cbv
  have hdot : split "a.[0]" = .error (.invalidKey "a.[0]") := by cbv
  exact ⟨h, (((split_exact "a[007].b").1 _).mp h).2, (split_exact "a.[0]").2.mp hdot⟩

/-! ### Keys relative to others -/

theorem join_append (first : Segment) (front back : List Segment) :
    join (first :: front ++ back) =
      join (first :: front) ++ String.join (back.map Segment.continuation) := by
  rw [List.cons_append, join, join, List.map_append, String.join_append, String.append_assoc]

theorem isEmpty_join (hs : ∀ segment ∈ segments, segment.Valid) :
    (join segments).isEmpty = segments.isEmpty := by
  rcases segments with _ | ⟨first, rest⟩
  · rfl
  · rw [List.isEmpty_cons, Bool.eq_false_iff, Ne, String.isEmpty_iff, ← String.toList_eq_nil_iff,
      toList_join_cons]
    obtain text | digits := first
    · obtain ⟨c, name, ht, -⟩ := exists_cons_of_valid (List.forall_mem_cons.mp hs).1
      simp [Segment.shown, ht]
    · simp [Segment.shown]

/-- What stands between a key and a text relative to it. -/
def joint (sub : String) : String := if sub.toList.head? = some '[' then "" else "."

theorem under_of_ne {parent sub : String} (hp : parent ≠ "") (hs : sub ≠ "") :
    under parent sub = parent ++ joint sub ++ sub := by
  unfold under joint
  rw [if_neg (by simpa using hp), if_neg (by simpa using hs)]
  split
  · rw [String.append_empty]
  · rfl

@[simp] theorem under_empty (parent : String) : under parent "" = parent := by
  by_cases hp : parent = "" <;> simp [under, hp]

@[simp] theorem empty_under (sub : String) : under "" sub = sub := rfl

theorem joint_append {sub : String} (hs : sub ≠ "") (back : String) :
    joint (sub ++ back) = joint sub := by
  obtain ⟨c, cs, hsub⟩ := List.exists_cons_of_ne_nil fun h => hs (String.toList_eq_nil_iff.mp h)
  unfold joint
  rw [String.toList_append, hsub]
  rfl

/-- It doesn't matter which of two relative keys is resolved first. -/
theorem under_assoc (parent sub key : String) :
    under (under parent sub) key = under parent (under sub key) := by
  by_cases hp : parent = ""
  · rw [hp, empty_under, empty_under]
  by_cases hs : sub = ""
  · rw [hs, under_empty, empty_under]
  by_cases hk : key = ""
  · rw [hk, under_empty, under_empty]
  have hfront : parent ++ joint sub ++ sub ≠ "" := by simp [hp]
  have hback : sub ++ (joint key ++ key) ≠ "" := by simp [hs]
  rw [under_of_ne hp hs, under_of_ne hs hk, under_of_ne hfront hk]
  simp only [String.append_assoc]
  rw [under_of_ne hp hback, joint_append hs, String.append_assoc]

theorem continues_joint (sub : String) : Continues (joint sub ++ sub).toList := by
  unfold joint
  split
  · next hb =>
    rw [String.empty_append, Continues, hb]
    rintro _ ⟨⟩
    exact .inr rfl
  · rw [String.toList_append]
    rintro _ ⟨⟩
    exact .inl rfl

/-- A text reads the same at the front of a key as behind a joint. -/
theorem continuation?_joint {sub : String} (hs : sub ≠ "") :
    continuation? (joint sub ++ sub).toList = segments? sub.toList := by
  obtain ⟨c, cs, hsub⟩ := List.exists_cons_of_ne_nil fun h => hs (String.toList_eq_nil_iff.mp h)
  unfold joint
  rw [String.toList_append, hsub]
  by_cases hc : c = '['
  · subst hc
    rfl
  · simp [segments?, hc]

theorem segments?_append (hne : cs ≠ []) (h : Continues ds) :
    segments? (cs ++ ds) =
      (segments? cs).bind fun front => (continuation? ds).map (front ++ ·) := by
  obtain ⟨c, cs, rfl⟩ := List.exists_cons_of_ne_nil hne
  by_cases hc : c = '['
  · subst hc
    exact continuation?_append h ('[' :: cs)
  · have happend := continuation?_append h ('.' :: c :: cs)
    simpa [segments?, hc] using happend

/-- A text relative to another one reads as the segments of the other and then its own. If one of the
two reads as none, so does the whole. -/
theorem segments?_under (parent sub : String) : segments? (under parent sub).toList =
    (segments? parent.toList).bind fun front => (segments? sub.toList).map (front ++ ·) := by
  have hempty : segments? "".toList = some [] := rfl
  by_cases hp : parent = ""
  · rw [hp, empty_under, hempty]
    simp
  by_cases hs : sub = ""
  · rw [hs, under_empty, hempty]
    simp
  rw [under_of_ne hp hs, String.append_assoc, String.toList_append,
    segments?_append (fun h => hp (String.toList_eq_nil_iff.mp h)) (continues_joint sub),
    continuation?_joint hs]

theorem split_under_eq_ok {parent sub : String} : split (under parent sub) = .ok segments ↔
    ∃ front back, split parent = .ok front ∧ split sub = .ok back ∧ segments = front ++ back := by
  simp only [split_eq_ok_iff_segments?, segments?_under, Option.bind_eq_some_iff,
    Option.map_eq_some_iff]
  constructor
  · rintro ⟨front, hf, back, hb, rfl⟩
    exact ⟨front, back, hf, hb, rfl⟩
  · rintro ⟨front, back, hf, hb, rfl⟩
    exact ⟨front, hf, back, hb, rfl⟩

theorem split_under_eq_error {parent sub : String} :
    split (under parent sub) = .error (.invalidKey (under parent sub)) ↔
      split parent = .error (.invalidKey parent) ∨ split sub = .error (.invalidKey sub) := by
  simp only [split_eq_error_iff_segments?, segments?_under]
  cases segments? parent.toList <;> simp

/-- A key relative to another one spells the segments of both. -/
theorem under_join {front back : List Segment} (hf : ∀ segment ∈ front, segment.Valid)
    (hb : ∀ segment ∈ back, segment.Valid) :
    under (join front) (join back) = join (front ++ back) := by
  have h := split_under_eq_ok.mpr ⟨front, back, split_join hf, split_join hb, rfl⟩
  exact (split_eq_ok.mp h).2.symm

end Key

/-! ### Labels -/

/-- A label that a segment stands for. -/
def Label.Valid : Label → Prop
  | .name text => text ≠ "" ∧ ∀ c ∈ text.toList, Key.isNameChar c = true
  | .position index => index < positionBound

theorem Key.isDigit_eq (c : Char) : isDigit c = c.isDigit := by
  simp [isDigit, Char.isDigit, Char.le_def]

theorem Segment.ofIndex_valid (index : ℕ) : (ofIndex index).Valid := by
  refine ⟨fun h => ?_, fun c hc => ?_⟩
  · have hn := congrArg String.toList h
    rw [Nat.toList_repr] at hn
    exact Nat.toDigits_ne_nil hn
  · rw [Nat.toList_repr] at hc
    rw [Key.isDigit_eq]
    exact Nat.isDigit_of_mem_toDigits (by decide) (by decide) hc

namespace Label

variable {label : Label}

theorem Valid.toSegment (h : label.Valid) : label.toSegment.Valid := by
  obtain text | index := label
  · exact h
  · exact Segment.ofIndex_valid index

/-- A position written in decimal stands for itself, if it is in bounds. -/
theorem ofSegment?_ofIndex (index : ℕ) : ofSegment? (.ofIndex index) =
    if index < positionBound then some (.position index) else none := by
  have hd : index.repr.toList.foldl (fun n c => 10 * n + (c.toNat - '0'.toNat)) 0 = index := by
    rw [Nat.toList_repr, ← Nat.ofDigitChars_eq_foldl, Nat.ofDigitChars_ten_toDigits]
  simp only [Label.ofSegment?, Segment.ofIndex, hd]

theorem Valid.ofSegment? (h : label.Valid) : ofSegment? label.toSegment = some label := by
  obtain text | index := label
  · rfl
  · exact (ofSegment?_ofIndex index).trans (if_pos h)

end Label

namespace Key

variable {path : List Label}

theorem toSegments_valid (h : ∀ label ∈ path, label.Valid) :
    ∀ segment ∈ path.map Label.toSegment, segment.Valid := by
  rw [List.forall_mem_map]
  exact fun label hl => (h label hl).toSegment

theorem split_ofLabels (h : ∀ label ∈ path, label.Valid) :
    split (ofLabels path) = .ok (path.map Label.toSegment) :=
  split_join (toSegments_valid h)

theorem labels?_toSegment (h : ∀ label ∈ path, label.Valid) :
    labels? (path.map Label.toSegment) = some path := by
  unfold labels?
  induction path with
  | nil => rfl
  | cons label rest ih =>
    rw [List.forall_mem_cons] at h
    rw [List.map_cons, List.mapM_cons, h.1.ofSegment?, ih h.2]
    rfl

theorem labels?_append (front back : List Segment) :
    labels? (front ++ back) = (labels? front).bind fun path => (labels? back).map (path ++ ·) := by
  unfold labels?
  rw [List.mapM_append]
  rcases List.mapM Label.ofSegment? front with _ | path
  · rfl
  · rcases List.mapM Label.ofSegment? back with _ | more <;> rfl

theorem isEmpty_ofLabels (h : ∀ label ∈ path, label.Valid) :
    (ofLabels path).isEmpty = path.isEmpty := by
  rw [ofLabels, isEmpty_join (toSegments_valid h), List.isEmpty_map]

theorem ofLabels_position (path : List Label) (index : ℕ) :
    ofLabels (path ++ [.position index]) = ofLabels path ++ (Segment.ofIndex index).shown := by
  rcases path with _ | ⟨first, rest⟩
  · simp [ofLabels, join, Label.toSegment]
  · unfold ofLabels
    rw [List.map_append, List.map_cons, join_append]
    simp [Label.toSegment, Segment.ofIndex, Segment.continuation, Segment.shown]

theorem ofLabels_name (h : ∀ label ∈ path, label.Valid) (name : String) :
    ofLabels (path ++ [.name name]) =
      if (ofLabels path).isEmpty then name else ofLabels path ++ "." ++ name := by
  rw [isEmpty_ofLabels h]
  rcases path with _ | ⟨first, rest⟩
  · simp [ofLabels, join, Label.toSegment, Segment.shown]
  · unfold ofLabels
    rw [List.map_append, List.map_cons, join_append]
    simp [Label.toSegment, Segment.continuation, String.append_assoc]

theorem under_ofLabels {front back : List Label} (hf : ∀ label ∈ front, label.Valid)
    (hb : ∀ label ∈ back, label.Valid) :
    under (ofLabels front) (ofLabels back) = ofLabels (front ++ back) := by
  rw [ofLabels, ofLabels, under_join (toSegments_valid hf) (toSegments_valid hb), ← List.map_append,
    ← ofLabels]

theorem under_position (h : ∀ label ∈ path, label.Valid) {index : ℕ}
    (hi : (Label.position index).Valid) :
    under (ofLabels path) (Segment.ofIndex index).shown = ofLabels (path ++ [.position index]) := by
  have hs : (Segment.ofIndex index).shown = ofLabels [.position index] :=
    String.append_empty.symm
  rw [hs, under_ofLabels h (List.forall_mem_singleton.mpr hi)]

theorem under_name (h : ∀ label ∈ path, label.Valid) {name : String}
    (hn : (Label.name name).Valid) :
    under (ofLabels path) name = ofLabels (path ++ [.name name]) := by
  have hs : name = ofLabels [.name name] := String.append_empty.symm
  rw [← under_ofLabels h (List.forall_mem_singleton.mpr hn), ← hs]

end Key
end BeanContainer
