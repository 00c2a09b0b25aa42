/-
# What a registry says about its beans

The positions that a search gives, and how lookups change when beans are decided or registered in
another order. `Registry.Ahead` compares two registries bean by bean: the second one may hold the
beans in another order, and may have decided more of them.

Key definitions: `Bean.Upholds`, `Bean.Settles`, `Registry.Ahead`, `Registry.Reordered`.
Key theorems: `Registry.mem_satisfying`, `Registry.lookup_settles`, `Registry.Ahead.lookup`,
`Registry.Reordered.satisfying_perm`.
-/
import BeanContainer.Registry
import BeanContainer.Proofs.Condition
import Mathlib.Data.List.Nodup
import Mathlib.Data.List.Perm.Subperm
import Mathlib.Logic.Equiv.Basic

namespace BeanContainer

/-- `later` is what `bean` may become while its decision stands, if there was one: it still takes part,
or still does not. -/
structure Bean.Upholds (bean later : Bean) : Prop where
  same : later = { bean with status := later.status }
  decided : bean.isUndecided = false → later.isUndecided = false
  alive : bean.isUndecided = false → later.isAlive = bean.isAlive

/-- `later` is what `bean` may become by a decision about its condition. -/
structure Bean.Settles (bean later : Bean) : Prop where
  same : later = { bean with status := later.status }
  kept : bean.status ≠ .default → later = bean

theorem Bean.isUndecided_iff {bean : Bean} : bean.isUndecided = true ↔ bean.status = .default := by
  simp [isUndecided]

theorem Bean.isAlive_of_isUndecided {bean : Bean} (h : bean.isUndecided = true) :
    bean.isAlive = true := by
  simp [isAlive, isUndecided_iff.mp h]

theorem Bean.Settles.upholds {bean later : Bean} (h : bean.Settles later) : bean.Upholds later := by
  have hkept : bean.isUndecided = false → later = bean := fun hd =>
    h.kept fun hs => Bool.false_ne_true (hd.symm.trans (isUndecided_iff.mpr hs))
  exact ⟨h.same, fun hd => by rw [hkept hd, hd], fun hd => by rw [hkept hd]⟩

namespace Registry

variable {registry later other : Registry}

/-! ### Positions -/

theorem getElem?_setStatus (registry : Registry) (index : ℕ) (status : Status) (i : ℕ) :
    (registry.setStatus index status).beans[i]? =
      if index = i then registry.beans[i]?.map fun bean => { bean with status }
      else registry.beans[i]? := by
  unfold setStatus modify
  rw [List.getElem?_modify]
  split <;> simp

@[simp] theorem length_setStatus (registry : Registry) (index : ℕ) (status : Status) :
    (registry.setStatus index status).beans.length = registry.beans.length := by
  simp [setStatus, modify]

theorem satisfies_iff {property : Bean → Bool} {i : ℕ} :
    registry.satisfies property i = true ↔
      ∃ bean, registry.beans[i]? = some bean ∧ property bean = true := by
  simp [satisfies, Option.any_eq_true]

theorem satisfies_eq {property : Bean → Bool} {i : ℕ} {bean : Bean}
    (hb : registry.beans[i]? = some bean) : registry.satisfies property i = property bean := by
  simp [satisfies, hb]

theorem mem_satisfying {property : Bean → Bool} {i : ℕ} :
    i ∈ registry.satisfying property ↔
      ∃ bean, registry.beans[i]? = some bean ∧ property bean = true := by
  unfold satisfying indices
  rw [List.mem_filter, satisfies_iff, List.mem_range, and_iff_right_iff_imp]
  rintro ⟨bean, hb, -⟩
  exact (List.getElem?_eq_some_iff.mp hb).1

theorem nodup_satisfying (registry : Registry) (property : Bean → Bool) :
    (registry.satisfying property).Nodup :=
  List.nodup_range.filter _

theorem mem_find {selector : Selector} {i : ℕ} :
    i ∈ registry.find selector ↔ ∃ bean, registry.beans[i]? = some bean ∧
      bean.isAlive = true ∧ selector.accepts bean.toDefinition = true := by
  unfold find
  rw [mem_satisfying]
  simp only [Bool.and_eq_true]

/-- The positions of beans have as many ids. -/
theorem length_ids {positions : List ℕ}
    (h : ∀ i ∈ positions, ∃ bean, registry.beans[i]? = some bean) :
    (registry.ids positions).length = positions.length := by
  induction positions with
  | nil => rfl
  | cons i rest ih =>
    obtain ⟨bean, hb⟩ := h i List.mem_cons_self
    have hr := ih fun j hj => h j (List.mem_cons_of_mem _ hj)
    unfold ids at hr ⊢
    rw [List.filterMap_cons, hb]
    simp [hr]

/-! ### Lookups -/

/-- The beans that a selector matches, as the bean `self` sees them. -/
def others (registry : Registry) (self : Option ℕ) (selector : Selector) : List ℕ :=
  (registry.find selector).filter fun index => self ≠ some index

theorem mem_others {self : Option ℕ} {selector : Selector} {i : ℕ} :
    i ∈ registry.others self selector ↔ self ≠ some i ∧ ∃ bean, registry.beans[i]? = some bean ∧
      bean.isAlive = true ∧ selector.accepts bean.toDefinition = true := by
  unfold others
  rw [List.mem_filter, mem_find, decide_eq_true_eq, and_comm]

theorem nodup_others (registry : Registry) (self : Option ℕ) (selector : Selector) :
    (registry.others self selector).Nodup :=
  (nodup_satisfying _ _).filter _

theorem length_lookup_resolved (self : Option ℕ) (selector : Selector) :
    (registry.lookup self selector).resolved.length =
      ((registry.others self selector).filter (registry.satisfies (!·.isUndecided))).length := by
  refine length_ids fun i hi => ?_
  obtain ⟨-, bean, hb, -⟩ := mem_others.mp (List.mem_of_mem_filter hi)
  exact ⟨bean, hb⟩

/-- Every bean that a lookup finds is either resolved or pending. -/
theorem length_lookup (self : Option ℕ) (selector : Selector) :
    (registry.lookup self selector).resolved.length +
      (registry.lookup self selector).pending.length =
        (registry.others self selector).length := by
  have hp : (registry.lookup self selector).pending.length =
      ((registry.others self selector).filter (registry.satisfies (·.isUndecided))).length := by
    refine length_ids fun i hi => ?_
    obtain ⟨-, bean, hb, -⟩ := mem_others.mp (List.mem_of_mem_filter hi)
    exact ⟨bean, hb⟩
  have hn : (registry.others self selector).filter (registry.satisfies (·.isUndecided)) =
      (registry.others self selector).filter
        (fun i => !registry.satisfies (!·.isUndecided) i) := by
    refine List.filter_congr fun i hi => ?_
    obtain ⟨-, bean, hb, -⟩ := mem_others.mp hi
    rw [satisfies_eq hb, satisfies_eq hb, Bool.not_not]
  rw [length_lookup_resolved, hp, hn]
  exact (List.length_eq_length_filter_add _).symm

/-! ### Registries that decided more -/

section

variable {σ τ : Equiv.Perm ℕ} {r : Bean → Bean → Prop}

theorem exists_after (h : ∀ i, Option.Rel r registry.beans[i]? later.beans[σ i]?) {i : ℕ} {bean : Bean}
    (hb : registry.beans[i]? = some bean) :
    ∃ after, later.beans[σ i]? = some after ∧ r bean after := by
  have hi := h i
  rw [hb] at hi
  rcases hl : later.beans[σ i]? with _ | after
  · rw [hl] at hi
    cases hi
  · rw [hl] at hi
    cases hi with
    | some hs => exact ⟨after, rfl, hs⟩

theorem exists_before (h : ∀ i, Option.Rel r registry.beans[i]? later.beans[σ i]?) {i : ℕ}
    {after : Bean} (ha : later.beans[σ i]? = some after) :
    ∃ bean, registry.beans[i]? = some bean ∧ r bean after := by
  have hi := h i
  rw [ha] at hi
  rcases hb : registry.beans[i]? with _ | bean
  · rw [hb] at hi
    cases hi
  · rw [hb] at hi
    cases hi with
    | some hs => exact ⟨bean, rfl, hs⟩

/-- Lookups are settled wherever decisions stand; where the beans stand does not matter. -/
theorem lookup_settles (h : ∀ i, Option.Rel r registry.beans[i]? later.beans[σ i]?)
    (hr : ∀ bean after, r bean after → bean.Upholds after) (self : Option ℕ) (selector : Selector) :
    (registry.lookup self selector).Settles (later.lookup (self.map σ) selector) where
  resolved := by
    rw [length_lookup_resolved, length_lookup_resolved, ← List.length_map σ]
    refine (List.Nodup.subperm ?_ ?_).length_le
    · exact List.Nodup.map σ.injective ((nodup_others _ _ _).filter _)
    · intro k hk
      obtain ⟨j, hj, rfl⟩ := List.mem_map.mp hk
      obtain ⟨ho, hs⟩ := List.mem_filter.mp hj
      obtain ⟨hself, bean, hb, halive, haccept⟩ := mem_others.mp ho
      rw [satisfies_eq hb, Bool.not_eq_true'] at hs
      obtain ⟨after, ha, hafter⟩ := exists_after h hb
      have hupholds := hr bean after hafter
      have halive' : after.isAlive = true := (hupholds.alive hs).trans halive
      have haccept' : selector.accepts after.toDefinition = true := by rwa [hupholds.same]
      refine List.mem_filter.mpr ⟨mem_others.mpr ⟨?_, after, ha, halive', haccept'⟩, ?_⟩
      · exact (Option.map_injective σ.injective).ne hself
      · rw [satisfies_eq ha, Bool.not_eq_true', hupholds.decided hs]
  total := by
    rw [length_lookup, length_lookup, ← List.length_map σ.symm]
    refine (List.Nodup.subperm ?_ ?_).length_le
    · exact List.Nodup.map σ.symm.injective (nodup_others _ _ _)
    · intro j hj
      obtain ⟨k, hk, rfl⟩ := List.mem_map.mp hj
      obtain ⟨hself, after, ha, halive, haccept⟩ := mem_others.mp hk
      rw [← σ.apply_symm_apply k] at ha
      obtain ⟨bean, hb, hafter⟩ := exists_before h ha
      have hupholds := hr bean after hafter
      refine mem_others.mpr ⟨?_, bean, hb, ?_, ?_⟩
      · rintro rfl
        simp at hself
      · cases hu : bean.isUndecided with
        | true => exact Bean.isAlive_of_isUndecided hu
        | false => exact (hupholds.alive hu).symm.trans halive
      · rwa [hupholds.same] at haccept

end

/-- `later` holds the beans of `registry`, the one at `i` at `σ i`, and a bean that is decided in
`registry` is decided in the same way in `later`. -/
def Ahead (σ : Equiv.Perm ℕ) (registry later : Registry) : Prop :=
  ∀ i, Option.Rel Bean.Settles registry.beans[i]? later.beans[σ i]?

variable {σ τ : Equiv.Perm ℕ}

theorem Ahead.after (h : Ahead σ registry later) {i : ℕ} {bean : Bean}
    (hb : registry.beans[i]? = some bean) :
    ∃ after, later.beans[σ i]? = some after ∧ bean.Settles after :=
  exists_after h hb

theorem Ahead.before (h : Ahead σ registry later) {i : ℕ} {after : Bean}
    (ha : later.beans[σ i]? = some after) :
    ∃ bean, registry.beans[i]? = some bean ∧ bean.Settles after :=
  exists_before h ha

theorem Ahead.refl (registry : Registry) : Ahead (Equiv.refl ℕ) registry registry := by
  intro i
  show Option.Rel _ registry.beans[i]? registry.beans[i]?
  cases registry.beans[i]? with
  | none => exact .none
  | some bean => exact .some ⟨rfl, fun _ => rfl⟩

theorem Ahead.trans (h : Ahead σ registry later) (h' : Ahead τ later other) :
    Ahead (σ.trans τ) registry other := by
  intro i
  have hi := h i
  have hi' := h' (σ i)
  show Option.Rel _ registry.beans[i]? other.beans[τ (σ i)]?
  revert hi hi'
  generalize registry.beans[i]? = a
  generalize later.beans[σ i]? = b
  generalize other.beans[τ (σ i)]? = c
  rintro (⟨h1⟩ | _) (⟨h2⟩ | _)
  · refine .some ⟨?_, fun hd => ?_⟩
    · rw [h2.same, h1.same]
    · have h3 := h1.kept hd
      rw [← h3] at hd
      rw [h2.kept hd, h3]
  · exact .none

/-- Deciding beans settles lookups; where the beans stand does not matter. -/
theorem Ahead.lookup (h : Ahead σ registry later) (i : ℕ) (selector : Selector) :
    (registry.lookup (some i) selector).Settles (later.lookup (some (σ i)) selector) :=
  lookup_settles h (fun _ _ => Bean.Settles.upholds) (some i) selector

/-! ### Registries in another order -/

/-- `other` holds the beans of `registry` in another order: the one at `i` stands at `σ i`. -/
def Reordered (σ : Equiv.Perm ℕ) (registry other : Registry) : Prop :=
  ∀ i, other.beans[σ i]? = registry.beans[i]?

theorem Reordered.symm (h : Reordered σ registry other) : Reordered σ.symm other registry := by
  intro i
  rw [← h (σ.symm i), σ.apply_symm_apply]

theorem Reordered.ahead (h : Reordered σ registry other) : Ahead σ registry other := by
  intro i
  rw [h i]
  exact Ahead.refl registry i

/-- The beans with a property are the same in every order. -/
theorem Reordered.satisfying_perm (h : Reordered σ registry other) (property : Bean → Bool) :
    ((registry.satisfying property).map σ).Perm (other.satisfying property) := by
  rw [List.perm_ext_iff_of_nodup (List.Nodup.map σ.injective (nodup_satisfying _ _))
    (nodup_satisfying _ _)]
  intro k
  rw [List.mem_map, mem_satisfying]
  constructor
  · rintro ⟨i, hi, rfl⟩
    rw [h i]
    exact mem_satisfying.mp hi
  · intro hk
    refine ⟨σ.symm k, mem_satisfying.mpr ?_, σ.apply_symm_apply k⟩
    rw [← h, σ.apply_symm_apply]
    exact hk

theorem Reordered.ids_map (h : Reordered σ registry other) (positions : List ℕ) :
    other.ids (positions.map σ) = registry.ids positions := by
  unfold ids
  rw [List.filterMap_map]
  refine List.filterMap_congr fun i _ => ?_
  show Option.map _ other.beans[σ i]? = _
  rw [h i]

end Registry
end BeanContainer
