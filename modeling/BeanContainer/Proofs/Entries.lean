/-
# Entries from pairs

Putting pairs one after the other keeps a pair until another one with its name is put. Pairs with
different names are all kept.

Key theorems: `Entries.mem_ofPairs`, `Entries.ofPairs_perm`.
-/
import BeanContainer.Entries
import Mathlib.Data.List.Induction
import Mathlib.Data.List.Nodup

namespace BeanContainer.Entries

variable {α : Type} {name : String} {value : α} {entry : String × α} {entries : Entries α}
  {pairs : List (String × α)}

theorem mem_put (h : entry ∈ put name value entries) : entry = (name, value) ∨ entry ∈ entries := by
  induction entries with
  | nil => exact .inl (List.mem_singleton.mp h)
  | cons first rest ih =>
    unfold put at h
    split at h
    · rcases List.mem_cons.mp h with rfl | hm
      · exact .inl rfl
      · exact .inr (List.mem_cons_of_mem first hm)
    · split at h
      · exact List.mem_cons.mp h
      · rcases List.mem_cons.mp h with rfl | hm
        · exact .inr List.mem_cons_self
        · exact (ih hm).imp_right (List.mem_cons_of_mem first)

/-- Entries come from the pairs. -/
theorem mem_ofPairs (h : entry ∈ ofPairs pairs) : entry ∈ pairs := by
  unfold ofPairs at h
  induction pairs using List.reverseRecOn with
  | nil => exact h
  | append_singleton front last ih =>
    rw [List.foldl_append] at h
    rcases mem_put h with rfl | hm
    · exact List.mem_append_right front List.mem_cons_self
    · exact List.mem_append_left _ (ih hm)

/-- A new name is added. -/
theorem put_perm (h : name ∉ entries.map (·.1)) :
    (put name value entries).Perm ((name, value) :: entries) := by
  induction entries with
  | nil => exact .refl _
  | cons first rest ih =>
    rw [List.map_cons, List.mem_cons, not_or] at h
    unfold put
    rw [if_neg (Ne.symm h.1)]
    split
    · exact .refl _
    · exact ((ih h.2).cons first).trans (.swap _ _ _)

/-- **Pairs with different names are all kept.** -/
theorem ofPairs_perm (h : (pairs.map (·.1)).Nodup) : (ofPairs pairs).Perm pairs := by
  unfold ofPairs
  induction pairs using List.reverseRecOn with
  | nil => exact .refl _
  | append_singleton front last ih =>
    rw [List.map_append, List.nodup_append] at h
    obtain ⟨hfront, -, hnew⟩ := h
    rw [List.foldl_append]
    have hperm := ih hfront
    have hlast : last.1 ∉ (ofPairs front).map (·.1) := fun hm =>
      hnew _ ((hperm.map _).mem_iff.mp hm) _ (by simp) rfl
    exact (put_perm hlast).trans ((hperm.cons last).trans (List.perm_append_singleton _ _).symm)

end BeanContainer.Entries
