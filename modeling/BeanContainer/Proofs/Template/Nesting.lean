/-
# Placeholders in placeholders

Two scans take a placeholder apart: one looks for the `}` that closes it, the other for the `:=` in front
of its default. Both count the placeholders that are open, each in its own way; here it is said without
counting what they find. The body of a placeholder is a text in which placeholders nest, and its key is
the part before the first `:=` outside of them.

Key definitions: `Template.Nests`, `Template.Balanced`, `Template.Unmarked`, `Template.Sides`.
Key theorems: `Template.splitBody_eq_some_iff`, `Template.splitDefault_eq_iff`.
-/
import BeanContainer.Proofs.Template

namespace BeanContainer
namespace Template

variable {strays marks : Bool} {depth : ℕ} {c : Char} {cs rest body behind key default : List Char}

/-! ### Texts in which placeholders nest -/

/-- Characters in which placeholders nest: each `}` closes a `${` in front of it, and none stays open.
Outside of the placeholders there may be more `}` if there are `strays`, and `:=` if there are `marks`. -/
inductive Nests : (strays marks : Bool) → List Char → Prop
  | nil {strays marks : Bool} : Nests strays marks []
  | char {strays marks : Bool} {c : Char} {cs : List Char} : (c = '}' → strays = true) →
      ¬ ['$', '{'] <+: c :: cs → ([':', '='] <+: c :: cs → marks = true) → Nests strays marks cs →
      Nests strays marks (c :: cs)
  | placeholder {strays marks : Bool} {inner rest : List Char} : Nests false true inner →
      Nests strays marks rest → Nests strays marks ('$' :: '{' :: (inner ++ '}' :: rest))

/-- Characters that can be the body of a placeholder. -/
abbrev Balanced (cs : List Char) : Prop := Nests false true cs

/-- Characters that can stand before the first `:=` outside of placeholders. -/
abbrev Unmarked (cs : List Char) : Prop := Nests true false cs

theorem pair_prefix_iff {a b : Char} : [a, b] <+: c :: cs ↔ a = c ∧ cs.head? = some b := by
  rw [List.cons_prefix_cons]
  rcases cs with _ | ⟨d, cs⟩
  · simp
  · simp [eq_comm]

theorem not_pair {a b : Char} (h : ∀ cs', c = a → cs = b :: cs' → False) : ¬ [a, b] <+: c :: cs := by
  rintro ⟨rest, he⟩
  cases he
  exact h rest rfl rfl

theorem not_pair_append {a b : Char} (h : ¬ [a, b] <+: c :: cs) (hr : rest.head? ≠ some b) :
    ¬ [a, b] <+: c :: (cs ++ rest) := by
  rw [pair_prefix_iff] at h ⊢
  rcases cs with _ | ⟨d, cs⟩
  · exact fun hp => hr hp.2
  · exact h

theorem not_pair_of_append {a b : Char} (h : ¬ [a, b] <+: c :: (cs ++ rest)) :
    ¬ [a, b] <+: c :: cs := fun hp => h (hp.trans (List.prefix_append (c :: cs) rest))

/-- Characters that nest are followed by others that do, where nothing opens between them. -/
theorem Nests.append (h : Nests strays marks cs) (h' : Nests strays marks rest)
    (ho : rest.head? ≠ some '{') (hm : marks = false → rest.head? ≠ some '=') :
    Nests strays marks (cs ++ rest) := by
  induction h with
  | nil => exact h'
  | char hc hopen hmark _ ih =>
    refine .char hc (not_pair_append hopen ho) (fun hp => ?_) (ih h' hm)
    by_contra hf
    rw [Bool.not_eq_true] at hf
    exact not_pair_append (fun hp' => absurd (hmark hp') (by rw [hf]; exact nofun)) (hm hf) hp
  | placeholder hinner _ _ ih =>
    rw [List.cons_append, List.cons_append, List.append_assoc, List.cons_append]
    exact .placeholder hinner (ih h' hm)

/-! ### The `}` that closes a placeholder -/

theorem eq_of_splitBody (h : splitBody depth cs = some (body, behind)) :
    cs = body ++ '}' :: behind := by
  fun_induction splitBody depth cs generalizing body behind with
  | case1 => cases h
  | case3 => cases h; rfl
  | case2 depth cs ih | case4 depth cs ih | case5 depth c cs _ _ _ ih =>
    obtain ⟨⟨inner, rest⟩, he, hs⟩ := Option.map_eq_some_iff.mp h
    cases hs
    rw [ih he]
    rfl

theorem splitBody_char (hc : c ≠ '}') (ho : ¬ ['$', '{'] <+: c :: cs) : splitBody depth (c :: cs) =
    (splitBody depth cs).map fun (body, behind) => (c :: body, behind) := by
  rw [pair_prefix_iff] at ho
  rw [splitBody]
  · rintro cs' rfl rfl
    exact ho ⟨rfl, rfl⟩
  · exact fun _ => hc
  · exact fun _ _ => hc

/-- The scan for a `}` goes over characters that nest. -/
theorem splitBody_append (h : Nests strays marks cs) (hs : strays = false)
    (hr : rest.head? ≠ some '{') (depth : ℕ) : splitBody depth (cs ++ rest) =
      (splitBody depth rest).map fun (body, behind) => (cs ++ body, behind) := by
  induction h generalizing rest depth with
  | nil => simp
  | char hc ho _ _ ih =>
    have hne : _ ≠ '}' := fun he => by rw [hs] at hc; exact absurd (hc he) nofun
    rw [List.cons_append, splitBody_char hne (not_pair_append ho hr), ih hs hr, Option.map_map]
    rfl
  | placeholder _ _ ih ih' =>
    rw [List.cons_append, List.cons_append, List.append_assoc, List.cons_append, splitBody,
      ih rfl (by simp), splitBody, ih' hs hr]
    simp [Option.map_map, Function.comp_def]

/-- Characters of which a front closes each of the placeholders that are open; the rest nests. -/
def Closes (strays marks : Bool) : (depth : ℕ) → List Char → Prop
  | 0, cs => Nests strays marks cs
  | depth + 1, cs => ∃ inner rest, cs = inner ++ '}' :: rest ∧ Balanced inner ∧
      Closes strays marks depth rest

theorem Closes.char (h : Closes strays marks depth cs) (hc : c = '}' → depth = 0 ∧ strays = true)
    (ho : ¬ ['$', '{'] <+: c :: cs) (hm : depth = 0 → [':', '='] <+: c :: cs → marks = true) :
    Closes strays marks depth (c :: cs) := by
  cases depth with
  | zero => exact .char (fun he => (hc he).2) ho (hm rfl) h
  | succ depth =>
    obtain ⟨inner, rest, rfl, hinner, hrest⟩ := h
    refine ⟨c :: inner, rest, rfl, .char (fun he => ?_) (not_pair_of_append ho) (fun _ => rfl) hinner,
      hrest⟩
    exact absurd (hc he).1 (Nat.succ_ne_zero depth)

theorem Closes.opened (h : Closes strays marks (depth + 1) cs) :
    Closes strays marks depth ('$' :: '{' :: cs) := by
  obtain ⟨inner, rest, rfl, hinner, hrest⟩ := h
  cases depth with
  | zero => exact .placeholder hinner hrest
  | succ depth =>
    obtain ⟨inner', rest', rfl, hinner', hrest'⟩ := hrest
    exact ⟨'$' :: '{' :: (inner ++ '}' :: inner'), rest', by simp, .placeholder hinner hinner', hrest'⟩

theorem Closes.closed (h : Closes strays marks depth cs) :
    Closes strays marks (depth + 1) ('}' :: cs) :=
  ⟨[], cs, rfl, .nil, h⟩

theorem closes_of_splitBody (h : splitBody depth cs = some (body, behind)) :
    Closes false true depth body := by
  fun_induction splitBody depth cs generalizing body behind with
  | case1 => cases h
  | case3 => cases h; exact .nil
  | case2 depth cs ih =>
    obtain ⟨⟨inner, rest⟩, he, hs⟩ := Option.map_eq_some_iff.mp h
    cases hs
    exact (ih he).opened
  | case4 depth cs ih =>
    obtain ⟨⟨inner, rest⟩, he, hs⟩ := Option.map_eq_some_iff.mp h
    cases hs
    exact (ih he).closed
  | case5 depth c cs ho h0 h1 ih =>
    obtain ⟨⟨inner, rest⟩, he, hs⟩ := Option.map_eq_some_iff.mp h
    cases hs
    have hopen := not_pair ho
    rw [eq_of_splitBody he] at hopen
    have hc : c ≠ '}' := by
      cases depth with
      | zero => exact h0 rfl
      | succ depth => exact h1 depth rfl
    exact (ih he).char (fun he => absurd he hc) (not_pair_of_append hopen) (fun _ _ => rfl)

/-- **The body of a placeholder** is the front of the characters up to a `}` in which placeholders
nest. -/
theorem splitBody_eq_some_iff : splitBody 0 cs = some (body, behind) ↔
    cs = body ++ '}' :: behind ∧ Balanced body := by
  constructor
  · exact fun h => ⟨eq_of_splitBody h, closes_of_splitBody h⟩
  · rintro ⟨rfl, h⟩
    rw [splitBody_append h rfl (by simp), splitBody]
    simp

/-! ### The `:=` in front of a default -/

theorem eq_of_splitDefault {default : Option (List Char)}
    (h : splitDefault depth cs = (key, default)) :
    cs = key ++ (default.elim [] fun default => ':' :: '=' :: default) := by
  fun_induction splitDefault depth cs generalizing key default with
  | case1 => cases h; rfl
  | case4 => cases h; rfl
  | case2 depth cs _ _ he ih | case3 depth cs _ _ he ih | case5 depth c cs _ _ _ _ _ he ih =>
    cases h
    rw [ih he]
    rfl

theorem splitDefault_char (hc : c = '}' → depth = 0) (ho : ¬ ['$', '{'] <+: c :: cs)
    (hm : depth = 0 → ¬ [':', '='] <+: c :: cs) : splitDefault depth (c :: cs) =
      (c :: (splitDefault depth cs).1, (splitDefault depth cs).2) := by
  rw [pair_prefix_iff] at ho
  simp only [pair_prefix_iff] at hm
  by_cases he : c = '}'
  · subst he
    rw [hc rfl, splitDefault]
  · rw [splitDefault]
    · rintro cs' rfl rfl
      exact ho ⟨rfl, rfl⟩
    · exact he
    · rintro cs' hd rfl rfl
      exact hm hd ⟨rfl, rfl⟩

/-- The scan for a `:=` goes over characters that nest; outside of placeholders there may be no `:=`. -/
theorem splitDefault_append (h : Nests strays marks cs) (ho : rest.head? ≠ some '{')
    (hm : rest.head? ≠ some '=') (hs : strays = true → depth = 0) (hd : marks = true → 0 < depth) :
    splitDefault depth (cs ++ rest) =
      (cs ++ (splitDefault depth rest).1, (splitDefault depth rest).2) := by
  induction h generalizing rest depth with
  | nil => rfl
  | char hc hopen hmark _ ih =>
    rw [List.cons_append, splitDefault_char (fun he => hs (hc he)) (not_pair_append hopen ho) ?_,
      ih ho hm hs hd]
    · rfl
    · intro h0
      refine not_pair_append (fun hp => ?_) hm
      exact absurd (hd (hmark hp)) (by omega)
  | placeholder _ _ ih ih' =>
    rw [List.cons_append, List.cons_append, List.append_assoc, List.cons_append, splitDefault,
      ih (by simp) (by simp) nofun (fun _ => Nat.succ_pos _), splitDefault, Nat.succ_sub_one,
      ih' ho hm hs hd]
    simp

theorem closes_of_splitDefault (h : splitDefault depth cs = (key, some default)) :
    Closes true false depth key := by
  fun_induction splitDefault depth cs generalizing key default with
  | case1 => cases h
  | case4 => cases h; exact .nil
  | case2 depth cs key' default' he ih =>
    cases h
    exact (ih he).opened
  | case3 depth cs key' default' he ih =>
    cases h
    cases depth with
    | zero => exact (ih he).char (fun _ => ⟨rfl, rfl⟩) (by simp) (by simp)
    | succ depth => exact (ih he).closed
  | case5 depth c cs ho hc hm key' default' he ih =>
    cases h
    have hcs := eq_of_splitDefault he
    have hopen := not_pair ho
    have hmark : depth = 0 → ¬ [':', '='] <+: c :: cs := fun h0 =>
      not_pair fun cs' h1 h2 => hm cs' h0 h1 h2
    rw [hcs] at hopen hmark
    exact (ih he).char (fun h => absurd h hc) (not_pair_of_append hopen)
      fun h0 hp => absurd hp (not_pair_of_append (hmark h0))

/-- The key and the default on the two sides of the first `:=` of `body` that stands outside of
placeholders; a body without one is a key. -/
inductive Sides (body : List Char) : List Char → Option (List Char) → Prop
  | marked {key default : List Char} : body = key ++ ':' :: '=' :: default → Unmarked key →
      Sides body key (some default)
  | whole : (∀ key default, body = key ++ ':' :: '=' :: default → ¬ Unmarked key) →
      Sides body body none

theorem splitDefault_of_unmarked (h : Unmarked key) (default : List Char) :
    splitDefault 0 (key ++ ':' :: '=' :: default) = (key, some default) := by
  rw [splitDefault_append h (by simp) (by simp) (fun _ => rfl) nofun, splitDefault]
  simp

/-- **The key and the default of a placeholder** are the sides of its body. -/
theorem splitDefault_eq_iff {default : Option (List Char)} :
    splitDefault 0 body = (key, default) ↔ Sides body key default := by
  constructor
  · intro h
    have hbody := eq_of_splitDefault h
    cases default with
    | some default => exact .marked hbody (closes_of_splitDefault h)
    | none =>
      rw [Option.elim_none, List.append_nil] at hbody
      subst hbody
      refine .whole fun key default he hkey => ?_
      have hsplit := splitDefault_of_unmarked hkey default
      rw [← he, h] at hsplit
      cases hsplit
  · rintro (⟨rfl, hkey⟩ | hnone)
    · exact splitDefault_of_unmarked hkey _
    · rcases hs : splitDefault 0 body with ⟨key, _ | default⟩
      · have hbody := eq_of_splitDefault hs
        rw [Option.elim_none, List.append_nil] at hbody
        rw [hbody]
      · exact absurd (closes_of_splitDefault hs) (hnone _ _ (eq_of_splitDefault hs))

end Template
end BeanContainer
