/-
# Which texts are tags

A tag is read by what stands at its ends, a `${` and a `}`, and not by whether the one closes the other.
So every text that is one placeholder is a tag, with the key and the default of the placeholder, and
texts that are framed like one are tags as well: two placeholders side by side are read as one key.

Key definitions: `Target.Frames`, `Target.Names`, `Target.Refuses`.
Key theorems: `Target.tagBody?_eq_some_iff`, `Target.ofTag_framed`.
-/
import BeanContainer.Binding.Target
import BeanContainer.Proofs.Template.Nesting

namespace BeanContainer
namespace Target

open Template (Balanced Sides)

variable {tag : String} {body key : List Char} {default : Option (List Char)}

/-- Without the blanks around it the tag is a `${`, the body and a `}`. -/
def Frames (tag : String) (body : List Char) : Prop :=
  Text.trimChars tag.toList = '$' :: '{' :: (body ++ ['}'])

/-- The tag is one placeholder: the `}` that closes the `${` at its beginning is its last character. -/
def IsPlaceholder (tag : String) : Prop := ∃ body, Frames tag body ∧ Balanced body

/-- The tag is accepted, for a target and for a field of one. The key loses the blanks around it. -/
structure Names (tag : String) (key : List Char) (default : Option (List Char)) : Prop where
  ofTag : ofTag tag =
    .ok ⟨String.ofList (Text.trimChars key), default.map String.ofList, none, ""⟩
  field : ∀ target name, field target name tag = .ok {
    key := Key.under target.key (String.ofList (Text.trimChars key))
    default := default.map String.ofList
    validator := none
    path := if target.path.isEmpty then name else target.path ++ "." ++ name }

/-- The tag is refused, for a target and for a field of one; the fault names it. -/
structure Refuses (tag : String) : Prop where
  ofTag : ofTag tag = .error (.invalidTemplate tag)
  field : ∀ target name, field target name tag = .error (.invalidTemplate tag)

theorem tagBody?_eq_some_iff : tagBody? tag.toList = some body ↔ Frames tag body := by
  unfold tagBody? Frames
  split
  · next inside hcs =>
    rw [hcs, List.cons.injEq, List.cons.injEq]
    constructor
    · intro h
      split_ifs at h with hl
      obtain ⟨front, rfl⟩ := List.getLast?_eq_some_iff.mp hl
      rw [List.dropLast_concat] at h
      cases h
      exact ⟨rfl, rfl, rfl⟩
    · rintro ⟨-, -, rfl⟩
      simp
  · next hcs => exact ⟨nofun, fun h => absurd h (hcs _)⟩

/-- Counting the placeholders that are open finds the same: a tag is one placeholder if the scan for the
`}` that closes it ends with the tag. -/
theorem isPlaceholder_iff : IsPlaceholder tag ↔ ∃ inside body,
    Text.trimChars tag.toList = '$' :: '{' :: inside ∧
      Template.splitBody 0 inside = some (body, []) := by
  constructor
  · rintro ⟨body, hb, hbalanced⟩
    exact ⟨_, body, hb, Template.splitBody_eq_some_iff.mpr ⟨rfl, hbalanced⟩⟩
  · rintro ⟨inside, body, hcs, hb⟩
    obtain ⟨rfl, hbalanced⟩ := Template.splitBody_eq_some_iff.mp hb
    exact ⟨body, hcs, hbalanced⟩

theorem names_of_parseTag (h : parseTag tag =
    .ok (String.ofList (Text.trimChars key), default.map String.ofList)) : Names tag key default where
  ofTag := by
    unfold Target.ofTag
    rw [h]
    rfl
  field := fun target name => by
    unfold Target.field
    rw [h]
    rfl

/-- What is framed as a placeholder is accepted, with the sides of its body. -/
theorem Frames.names (h : Frames tag body) (hs : Sides body key default) : Names tag key default := by
  refine names_of_parseTag ?_
  unfold parseTag
  rw [tagBody?_eq_some_iff.mpr h]
  dsimp only
  rw [Template.splitDefault_eq_iff.mpr hs]

theorem refuses_of_not_frames (h : ∀ body, ¬ Frames tag body) : Refuses tag := by
  have hbody : tagBody? tag.toList = none :=
    Option.eq_none_iff_forall_ne_some.mpr fun body hb => h body (tagBody?_eq_some_iff.mp hb)
  have hparse : parseTag tag = .error (.invalidTemplate tag) := by
    unfold parseTag
    rw [hbody]
  exact ⟨by unfold Target.ofTag; rw [hparse]; rfl, fun _ _ => by unfold Target.field; rw [hparse]; rfl⟩

/-- **Tags are what is framed as a placeholder.** A text between `${` and `}` is accepted, with the key
and the default on the two sides of the first `:=` outside of inner placeholders; every other text is
refused. To be accepted is the same as to be one placeholder exactly unless the text is framed as one
and has braces inside that do not match. -/
theorem ofTag_framed (tag : String) :
    (∀ body, Frames tag body → ∃ key default, Sides body key default ∧ Names tag key default) ∧
    ((∀ body, ¬ Frames tag body) → Refuses tag) ∧
    (((∃ target, ofTag tag = .ok target) ↔ IsPlaceholder tag) ↔
      ∀ body, Frames tag body → Balanced body) := by
  have hnames : ∀ body, Frames tag body →
      ∃ key default, Sides body key default ∧ Names tag key default := fun body h =>
    ⟨_, _, Template.splitDefault_eq_iff.mp rfl, h.names (Template.splitDefault_eq_iff.mp rfl)⟩
  refine ⟨hnames, refuses_of_not_frames, fun h body hb => ?_, fun h => ⟨?_, ?_⟩⟩
  · obtain ⟨key, default, -, hn⟩ := hnames body hb
    obtain ⟨body', hb', hbalanced⟩ := h.mp ⟨_, hn.ofTag⟩
    have hsame : some body = some body' :=
      (tagBody?_eq_some_iff.mpr hb).symm.trans (tagBody?_eq_some_iff.mpr hb')
    cases hsame
    exact hbalanced
  · rintro ⟨target, ht⟩
    by_contra hnone
    have hrefuses := refuses_of_not_frames fun body hb => hnone ⟨body, hb, h body hb⟩
    rw [hrefuses.ofTag] at ht
    cases ht
  · rintro ⟨body, hb, -⟩
    obtain ⟨key, default, -, hn⟩ := hnames body hb
    exact ⟨_, hn.ofTag⟩

/-- Blanks around a placeholder and its key, a placeholder in its default, and a text without braces. -/
theorem ofTag_framed_nested :
    ofTag " $\x7b a :=$\x7bb:=c\x7d\x7d " = .ok ⟨"a", some "$\x7bb:=c\x7d", none, ""⟩ ∧
      Refuses "port" := by
  have hframes : Frames " $\x7b a :=$\x7bb:=c\x7d\x7d " " a :=$\x7bb:=c\x7d".toList := by
    unfold Frames
    decide +kernel
  have hsplit : Template.splitDefault 0 " a :=$\x7bb:=c\x7d".toList =
      (" a ".toList, some "$\x7bb:=c\x7d".toList) := by decide +kernel
  constructor
  · obtain ⟨key, default, hs, hn⟩ := (ofTag_framed _).1 _ hframes
    rw [← Template.splitDefault_eq_iff, hsplit] at hs
    cases hs
    exact hn.ofTag
  · refine (ofTag_framed "port").2.1 fun body h => ?_
    have hport : Text.trimChars "port".toList = "port".toList := by decide +kernel
    unfold Frames at h
    rw [hport] at h
    cases h

/-- Two placeholders side by side are no placeholder, but they are accepted as a tag. -/
theorem ofTag_adjacent :
    ofTag "$\x7ba\x7d$\x7bb\x7d" = .ok ⟨"a\x7d$\x7bb", none, none, ""⟩ ∧
      ¬ IsPlaceholder "$\x7ba\x7d$\x7bb\x7d" := by
  refine ⟨by rfl, fun h => ?_⟩
  obtain ⟨inside, body, hcs, hb⟩ := isPlaceholder_iff.mp h
  have htrim : Text.trimChars "$\x7ba\x7d$\x7bb\x7d".toList =
      '$' :: '{' :: "a\x7d$\x7bb\x7d".toList := by decide +kernel
  have hfirst : Template.splitBody 0 "a\x7d$\x7bb\x7d".toList =
      some ("a".toList, "$\x7bb\x7d".toList) := by decide +kernel
  rw [htrim] at hcs
  cases hcs
  rw [hfirst] at hb
  cases hb

end Target
end BeanContainer
