/-
# Resolution

What `Registry.resolve` decides. Its passes end with the only registry in which every decided bean
is decided by its condition and every other one is pending (`Settling`), so the order in which the
beans are registered changes nothing, and the decisions hold in the registry that it gives.

Key definitions: `Registry.ofDefinitions`, `Registry.SettledAlike`, `Registry.ResolvedAlike`.
Key theorems: `Registry.settle_reordered`, `Registry.resolve_reordered`,
`Registry.resolve_consistent`.
-/
import BeanContainer.Proofs.Registry.Settling

namespace BeanContainer
namespace Registry

open Condition (Undecided)

variable {store : Store} {registry other last last' : Registry} {σ : Equiv.Perm ℕ}

/-- The registry in which these definitions were registered one after the other. -/
def ofDefinitions (definitions : List Definition) : Registry :=
  ⟨definitions.map Bean.ofDefinition⟩

theorem foldl_register (definitions : List Definition) (registry : Registry) :
    definitions.foldl register registry =
      ⟨registry.beans ++ (ofDefinitions definitions).beans⟩ := by
  induction definitions generalizing registry with
  | nil => simp [ofDefinitions]
  | cons definition rest ih =>
    rw [List.foldl_cons, ih]
    simp [register, ofDefinitions]

/-! ### The parts of a resolution -/

theorem refused?_eq_none_iff :
    registry.refused? = none ↔
      ∀ bean ∈ registry.beans, ∀ reason, bean.source ≠ .refused reason := by
  unfold refused?
  rw [List.findSome?_eq_none_iff]
  refine forall₂_congr fun bean _ => ?_
  cases bean.source <;> simp

theorem repeated?_eq_none_iff {seen ids : List String} :
    repeated? seen ids = none ↔ (∀ id ∈ ids, id ∉ seen) ∧ ids.Nodup := by
  induction ids generalizing seen with
  | nil => simp [repeated?]
  | cons id rest ih =>
    rw [repeated?]
    by_cases hs : id ∈ seen
    · simp [hs]
    · rw [if_neg hs, ih, List.forall_mem_cons, List.nodup_cons]
      simp only [List.mem_cons, not_or]
      constructor
      · rintro ⟨h1, h2⟩
        exact ⟨⟨hs, fun x hx => (h1 x hx).2⟩, fun hmem => (h1 id hmem).1 rfl, h2⟩
      · rintro ⟨⟨-, h1⟩, h2, h3⟩
        exact ⟨fun x hx => ⟨fun he => h2 (he ▸ hx), h1 x hx⟩, h3⟩

theorem waiting_map_fst (registry : Registry) (store : Store) :
    (registry.waiting store).map (·.1) = registry.ids (registry.satisfying (·.isUndecided)) := by
  unfold waiting ids
  rw [List.map_filterMap]
  refine List.filterMap_congr fun i _ => ?_
  cases registry.beans[i]? <;> rfl

theorem waiting_eq_nil_iff : registry.waiting store = [] ↔
    ∀ (i : ℕ) (bean : Bean), registry.beans[i]? = some bean → bean.status ≠ .default := by
  rw [← List.map_eq_nil_iff (f := (·.1)), waiting_map_fst, ← List.length_eq_zero_iff,
    length_ids fun i hi => (mem_satisfying.mp hi).imp fun _ h => h.1, List.length_eq_zero_iff,
    List.eq_nil_iff_forall_not_mem]
  refine forall_congr' fun i => ?_
  rw [mem_satisfying]
  simp [Bean.isUndecided_iff]

/-- How a resolution ends that refuses no bean and no condition of which fails. -/
theorem resolve_of_settle (hr : registry.refused? = none)
    (hs : settle store registry = .ok last) : resolve store registry =
      match last.waiting store with
      | [] =>
        match repeated? [] (last.ids (last.satisfying (·.isAlive))) with
        | some id => .error (.usage (.duplicateId id))
        | none => .ok last
      | waiting => .error (.lookup (.stuck waiting)) := by
  unfold resolve
  rw [hr, hs]
  rfl

theorem resolve_of_fault {fault : Fault} (hr : registry.refused? = none)
    (hs : settle store registry = .error fault) : resolve store registry = .error fault := by
  unfold resolve
  rw [hr, hs]
  rfl

/-- What holds of a registry that a resolution gives. -/
theorem resolve_ok (h : resolve store registry = .ok last) :
    registry.refused? = none ∧ settle store registry = .ok last ∧
      (∀ (i : ℕ) (bean : Bean), last.beans[i]? = some bean → bean.status ≠ .default) ∧
      (last.ids (last.satisfying (·.isAlive))).Nodup := by
  rcases hr : registry.refused? with _ | ⟨id, reason⟩
  · rcases hs : settle store registry with fault | settled
    · rw [resolve_of_fault hr hs] at h
      cases h
    · rw [resolve_of_settle hr hs] at h
      rcases hw : settled.waiting store with _ | ⟨entry, rest⟩
      · rw [hw] at h
        dsimp only at h
        rcases hd : repeated? [] (settled.ids (settled.satisfying (·.isAlive))) with _ | id
        · rw [hd] at h
          cases h
          exact ⟨rfl, rfl, waiting_eq_nil_iff.mp hw, (repeated?_eq_none_iff.mp hd).2⟩
        · rw [hd] at h
          cases h
      · rw [hw] at h
        cases h
  · unfold resolve at h
    rw [hr] at h
    cases h

/-! ### The order of registration -/

/-- The ends of the passes over two registries that hold the same beans: the same statuses, the
bean at `i` in the first one being at `σ i` in the second one, or conditions that fail. -/
inductive SettledAlike (σ : Equiv.Perm ℕ) : Except Fault Registry → Except Fault Registry → Prop
  | settled {last last' : Registry} : Reordered σ last last' →
    SettledAlike σ (.ok last) (.ok last')
  | failed (id id' : String) (cause cause' : Fault) :
    SettledAlike σ (.error (.conditionFailed id cause)) (.error (.conditionFailed id' cause'))

/-- The results of the resolution of two registries that hold the same beans. -/
inductive ResolvedAlike (σ : Equiv.Perm ℕ) : Except Fault Registry → Except Fault Registry → Prop
  /-- The same beans are resolved, and the same are deleted. -/
  | decided {last last' : Registry} : Reordered σ last last' →
    ResolvedAlike σ (.ok last) (.ok last')
  /-- Beans are left undecided, the same ones. -/
  | stuck {waiting waiting' : List (String × List String)} :
    (waiting.map (·.1)).Perm (waiting'.map (·.1)) →
    ResolvedAlike σ (.error (.lookup (.stuck waiting))) (.error (.lookup (.stuck waiting')))
  | failed (id id' : String) (cause cause' : Fault) :
    ResolvedAlike σ (.error (.conditionFailed id cause)) (.error (.conditionFailed id' cause'))
  | refused (id id' : String) (cause cause' : Fault) :
    ResolvedAlike σ (.error (.invalidBean id cause)) (.error (.invalidBean id' cause'))
  /-- Two survivors share an id. -/
  | repeated (id id' : String) :
    ResolvedAlike σ (.error (.usage (.duplicateId id))) (.error (.usage (.duplicateId id')))

/-- Two registries each of which has decided all that the other one has are the same. -/
theorem Ahead.reordered (h : Ahead σ last last') (h' : Ahead σ.symm last' last) :
    Reordered σ last last' := by
  intro i
  rcases hb : last.beans[i]? with _ | bean
  · rcases hb' : last'.beans[σ i]? with _ | after
    · rfl
    · obtain ⟨bean, hbean, -⟩ := h.before hb'
      rw [hb] at hbean
      cases hbean
  · obtain ⟨after, ha, hs⟩ := h.after hb
    obtain ⟨bean', hb', hs'⟩ := h'.after ha
    rw [σ.symm_apply_apply, hb] at hb'
    cases hb'
    rw [ha]
    by_cases hd : bean.status = .default
    · by_cases hd' : after.status = .default
      · rw [hs.same, hd', ← hd]
      · rw [hs'.kept hd']
    · rw [hs.kept hd]

/-- **The passes end alike in every order of the beans.** -/
theorem settle_reordered (store : Store) (h : Reordered σ registry other) :
    SettledAlike σ (settle store registry) (settle store other) := by
  rcases hs : settle store registry with fault | last <;>
    rcases hs' : settle store other with fault' | last'
  · obtain ⟨-, -, bean, cause, -, -, -, -, rfl⟩ := fault_of_settle hs
    obtain ⟨-, -, bean', cause', -, -, -, -, rfl⟩ := fault_of_settle hs'
    exact .failed _ _ _ _
  · obtain ⟨middle, i, bean, cause, hr, hb, hu, he, -⟩ := fault_of_settle hs
    exact absurd he ((settled_of_settle hs').no_fault h hr hb hu cause)
  · obtain ⟨middle, i, bean, cause, hr, hb, hu, he, -⟩ := fault_of_settle hs'
    exact absurd he ((settled_of_settle hs).no_fault h.symm hr hb hu cause)
  · have h1 := settled_of_settle hs
    have h2 := settled_of_settle hs'
    exact .settled ((h2.ahead h h1.reaches).reordered (h1.ahead h.symm h2.reaches))

theorem Reordered.refused? (h : Reordered σ registry other) (hr : registry.refused? = none) :
    other.refused? = none := by
  rw [refused?_eq_none_iff] at hr ⊢
  intro bean hb
  obtain ⟨k, hk⟩ := List.mem_iff_getElem?.mp hb
  rw [← σ.apply_symm_apply k, h] at hk
  exact hr bean (List.mem_of_getElem? hk)

theorem Reordered.waiting_perm (h : Reordered σ last last') (store : Store) :
    ((last.waiting store).map (·.1)).Perm ((last'.waiting store).map (·.1)) := by
  rw [waiting_map_fst, waiting_map_fst, ← h.ids_map]
  exact (h.satisfying_perm _).filterMap _

theorem Reordered.survivors_perm (h : Reordered σ last last') :
    (last.ids (last.satisfying (·.isAlive))).Perm
      (last'.ids (last'.satisfying (·.isAlive))) := by
  rw [← h.ids_map]
  exact (h.satisfying_perm _).filterMap _

/-- What one order decides every other order decides. -/
theorem Reordered.resolve_ok (h : Reordered σ registry other)
    (hr : resolve store registry = .ok last) :
    ∃ last', resolve store other = .ok last' ∧ Reordered σ last last' := by
  obtain ⟨h1, h2, h3, h4⟩ := Registry.resolve_ok hr
  have hs := settle_reordered store h
  rw [h2] at hs
  generalize hs' : settle store other = result at hs
  cases hs with
  | @settled _ last' hl =>
    refine ⟨last', ?_, hl⟩
    have hw : last'.waiting store = [] := by
      have hp := hl.waiting_perm store
      rw [waiting_eq_nil_iff.mpr h3, List.map_nil] at hp
      exact List.map_eq_nil_iff.mp hp.nil_eq.symm
    have hd : repeated? [] (last'.ids (last'.satisfying (·.isAlive))) = none :=
      repeated?_eq_none_iff.mpr ⟨fun _ _ => List.not_mem_nil, hl.survivors_perm.nodup_iff.mp h4⟩
    rw [resolve_of_settle (h.refused? h1) hs', hw]
    dsimp only
    rw [hd]

/-- **The order of registration does not matter.** Two registries that hold the same beans in
different orders are resolved alike: both succeed with the same beans resolved and the same
deleted, or both leave the same beans undecided, or a condition fails in both. -/
theorem resolve_reordered (h : Reordered σ registry other) :
    ResolvedAlike σ (resolve store registry) (resolve store other) ∧
      SettledAlike σ (settle store registry) (settle store other) := by
  refine ⟨?_, settle_reordered store h⟩
  rcases hr : registry.refused? with _ | ⟨id, reason⟩
  · have hr' := h.refused? hr
    have hs := settle_reordered store h
    generalize hs1 : settle store registry = first at hs
    generalize hs2 : settle store other = second at hs
    cases hs with
    | failed id id' cause cause' =>
      rw [resolve_of_fault hr hs1, resolve_of_fault hr' hs2]
      exact .failed _ _ _ _
    | @settled last last' hl =>
      rw [resolve_of_settle hr hs1, resolve_of_settle hr' hs2]
      have hw := hl.waiting_perm store
      rcases hw1 : last.waiting store with _ | ⟨entry, rest⟩ <;>
        rcases hw2 : last'.waiting store with _ | ⟨entry', rest'⟩ <;>
        rw [hw1, hw2] at hw
      · have hn := hl.survivors_perm.nodup_iff
        rcases hd : repeated? [] (last.ids (last.satisfying (·.isAlive))) with _ | id <;>
          rcases hd' : repeated? [] (last'.ids (last'.satisfying (·.isAlive))) with _ | id'
        · exact .decided hl
        · have hnot := hn.mp (repeated?_eq_none_iff.mp hd).2
          rw [repeated?_eq_none_iff.mpr ⟨fun _ _ => List.not_mem_nil, hnot⟩] at hd'
          cases hd'
        · have hnot := hn.mpr (repeated?_eq_none_iff.mp hd').2
          rw [repeated?_eq_none_iff.mpr ⟨fun _ _ => List.not_mem_nil, hnot⟩] at hd
          cases hd
        · exact .repeated _ _
      · cases hw.nil_eq
      · cases hw.eq_nil
      · exact .stuck hw
  · rcases hr' : other.refused? with _ | ⟨id', reason'⟩
    · rw [h.symm.refused? hr'] at hr
      cases hr
    · unfold resolve
      rw [hr, hr']
      exact .refused _ _ _ _

/-- A bean with this id, an object that takes part under a condition. -/
def conditional (id : String) (condition : Condition) : Definition :=
  (Definition.ofSource ⟨id⟩ id (.object .unit)).on condition

/-- Three beans, each of which waits on the next one. -/
def chain : List Definition :=
  [conditional "a" (.onMissingBean (.named "b")),
    conditional "b" (.all [.not (.onMissingBean (.named "c")), .onMissingProperty "x"]),
    conditional "c" (.onMissingProperty "x")]

theorem resolve_reordered_chain :
    Reordered (Equiv.swap 0 2) (ofDefinitions chain) (ofDefinitions chain.reverse) ∧
      ResolvedAlike (Equiv.swap 0 2) (resolve .empty (ofDefinitions chain))
        (resolve .empty (ofDefinitions chain.reverse)) ∧
      SettledAlike (Equiv.swap 0 2) (settle .empty (ofDefinitions chain))
        (settle .empty (ofDefinitions chain.reverse)) := by
  have h : Reordered (Equiv.swap 0 2) (ofDefinitions chain) (ofDefinitions chain.reverse) := by
    rintro (_ | _ | _ | i)
    · rfl
    · rfl
    · rfl
    · rw [Equiv.swap_apply_of_ne_of_ne (by omega) (by omega)]
      rfl
  exact ⟨h, resolve_reordered h⟩

/-! ### The decisions -/

theorem Ahead.definitions {registry later : Registry} (h : Ahead (Equiv.refl ℕ) registry later) :
    later.beans.map (·.toDefinition) = registry.beans.map (·.toDefinition) := by
  refine List.ext_getElem? fun i => ?_
  rw [List.getElem?_map, List.getElem?_map]
  rcases hb : registry.beans[i]? with _ | bean
  · rcases ha : later.beans[i]? with _ | after
    · rfl
    · obtain ⟨bean, hbean, -⟩ := h.before (i := i) ha
      rw [hb] at hbean
      cases hbean
  · obtain ⟨after, ha, hs⟩ := h.after hb
    change later.beans[i]? = some after at ha
    rw [ha, hs.same]
    rfl

theorem undecided_ofDefinitions_le (definitions : List Definition) :
    (ofDefinitions definitions).undecided ≤ definitions.length := by
  unfold undecided satisfying indices
  refine Nat.le_trans (List.length_filter_le _ _) ?_
  simp [ofDefinitions]

/-- **Decisions hold in the registry they lead to.** There is at most one pass more than there are
beans. In the registry that comes out no bean is undecided, a bean is resolved exactly when it has
no condition or one that matches there, and deleted exactly when it has one that does not; a
condition sees all beans but its own. The survivors have different ids. -/
theorem resolve_consistent (store : Store) (definitions : List Definition) :
    (∃ n ≤ definitions.length + 1, Passes store (ofDefinitions definitions) n
      (settle store (ofDefinitions definitions))) ∧
    ∀ last, resolve store (ofDefinitions definitions) = .ok last →
      last.beans.map (·.toDefinition) = definitions ∧
      (∀ (i : ℕ) (bean : Bean), last.beans[i]? = some bean →
        (bean.status = .resolved ∨ bean.status = .deleted) ∧
        (bean.status = .resolved ↔ bean.condition = none ∨ ∃ condition,
          bean.condition = some condition ∧
            condition.evaluate store (last.lookup (some i)) = .ok .matched) ∧
        (bean.status = .deleted ↔ ∃ condition, bean.condition = some condition ∧
          condition.evaluate store (last.lookup (some i)) = .ok .unmatched)) ∧
      (last.ids (last.satisfying (·.isAlive))).Nodup := by
  constructor
  · obtain ⟨n, hn, hp⟩ := passes_settle store (ofDefinitions definitions)
    have hle := undecided_ofDefinitions_le definitions
    exact ⟨n, by omega, hp⟩
  intro last h
  obtain ⟨-, hs, hd, hids⟩ := resolve_ok h
  have hsettled := settled_of_settle hs
  have hahead := ahead_of_reaches hsettled.reaches
  refine ⟨?_, fun i bean hb => ?_, hids⟩
  · rw [hahead.definitions]
    unfold ofDefinitions
    rw [List.map_map]
    exact List.map_id _
  · obtain ⟨first, hf, -⟩ := hahead.before (i := i) hb
    have hfirst : first.status = .default := by
      unfold ofDefinitions at hf
      rw [List.getElem?_map, Option.map_eq_some_iff] at hf
      obtain ⟨definition, -, rfl⟩ := hf
      rfl
    obtain ⟨outcome, ho, hstatus⟩ := hsettled.status_eq hf hfirst hb
    have hdecided := hd i bean hb
    unfold outcomeAt at ho
    rw [hstatus] at hdecided ⊢
    revert ho
    cases bean.condition with
    | none =>
      intro ho
      cases ho
      simp [statusOf]
    | some condition =>
      intro ho
      dsimp only at ho
      cases outcome with
      | matched => simp [statusOf, ho]
      | unmatched => simp [statusOf, ho]
      | pending ids => exact absurd rfl hdecided

theorem resolve_consistent_chain :
    ∃ last, resolve .empty (ofDefinitions chain) = .ok last ∧
      last.beans.map (·.status) = [.deleted, .resolved, .resolved] ∧
      last.beans.map (·.toDefinition) = chain ∧
      (last.ids (last.satisfying (·.isAlive))).Nodup := by
  have h : resolve .empty (ofDefinitions chain) =
      .ok ⟨(chain.zip [.deleted, .resolved, .resolved]).map fun (definition, status) =>
        { Bean.ofDefinition definition with status }⟩ := by cbv
  have hc := (resolve_consistent .empty chain).2 _ h
  exact ⟨_, h, rfl, hc.1, hc.2.2⟩

end Registry
end BeanContainer
