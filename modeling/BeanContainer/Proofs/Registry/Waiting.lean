/-
# Beans that wait on each other

When the passes decide nothing more, every bean that is left is pending: its condition looks up
another bean that is left. Following what beans wait on never ends then, and as there are finitely
many of them it comes back to a bean where it was before. So a resolution is stuck only through
conditions that refer to each other in a circle.

Key definitions: `Registry.RefersTo`, `Registry.WaitsOn`, `Registry.Entry`, `Registry.Stuck`.
Key theorems: `Registry.Settled.waits`, `Registry.exists_cycle`, `Registry.resolve_stuck`.
-/
import BeanContainer.Proofs.Registry.Resolution
import Mathlib.Data.Fintype.Card
import Mathlib.Data.Set.Finite.List

namespace BeanContainer
namespace Registry

open Relation (ReflTransGen TransGen)

variable {store : Store} {registry start last : Registry}

/-! ### References and waits -/

/-- The condition of the bean at `i` refers to another bean, the one at `j`: a selector in the
condition matches it. -/
def RefersTo (registry : Registry) (i j : ℕ) : Prop :=
  i ≠ j ∧ ∃ bean other condition, registry.beans[i]? = some bean ∧
    registry.beans[j]? = some other ∧ bean.condition = some condition ∧
    ∃ selector ∈ condition.selectors, selector.accepts other.toDefinition = true

/-- The bean at `i` waits on another one, `j`: both are undecided, the condition of the first one
refers to the second one, and it is pending on the second one's id. -/
structure WaitsOn (store : Store) (registry : Registry) (i j : ℕ) : Prop where
  undecided : i ∈ registry.satisfying (·.isUndecided)
  awaited : j ∈ registry.satisfying (·.isUndecided)
  refers : registry.RefersTo i j
  pending : ∃ bean other, registry.beans[i]? = some bean ∧ registry.beans[j]? = some other ∧
    other.id ∈ waitsOn (registry.outcomeAt store i bean)

theorem mem_ids {positions : List ℕ} {id : String} : id ∈ registry.ids positions ↔
    ∃ j ∈ positions, ∃ bean, registry.beans[j]? = some bean ∧ bean.id = id := by
  simp [ids, Option.map_eq_some_iff]

/-- What a lookup finds pending are undecided beans that the selector matches. -/
theorem mem_lookup_pending {i : ℕ} {selector : Selector} {id : String}
    (h : id ∈ (registry.lookup (some i) selector).pending) :
    ∃ j other, registry.beans[j]? = some other ∧ other.id = id ∧ i ≠ j ∧
      other.isUndecided = true ∧ selector.accepts other.toDefinition = true := by
  obtain ⟨j, hj, other, ho, hid⟩ := mem_ids.mp h
  obtain ⟨hothers, hu⟩ := List.mem_filter.mp hj
  obtain ⟨hij, other', ho', -, haccepts⟩ := mem_others.mp hothers
  rw [ho] at ho'
  cases ho'
  rw [satisfies_eq ho] at hu
  exact ⟨j, other, ho, hid, fun he => hij (congrArg some he), hu, haccepts⟩

/-- Decisions change no references. -/
theorem Ahead.refersTo (h : Ahead (Equiv.refl ℕ) registry last) {i j : ℕ}
    (hr : last.RefersTo i j) : registry.RefersTo i j := by
  obtain ⟨hij, after, other', condition, ha, ho', hc, selector, hs, haccepts⟩ := hr
  obtain ⟨bean, hb, hbean⟩ := h.before (i := i) ha
  obtain ⟨other, ho, hother⟩ := h.before (i := j) ho'
  rw [hbean.same] at hc
  rw [hother.same] at haccepts
  exact ⟨hij, bean, other, condition, hb, ho, hc, selector, hs, haccepts⟩

/-- Where the passes end, an undecided bean waits: it is pending on some ids, and each of them is
that of a bean that it waits on. -/
theorem Settled.waits (h : Settled store start last) {i : ℕ}
    (hi : i ∈ last.satisfying (·.isUndecided)) :
    ∃ bean, last.beans[i]? = some bean ∧ waitsOn (last.outcomeAt store i bean) ≠ [] ∧
      ∀ id ∈ waitsOn (last.outcomeAt store i bean), ∃ j other, WaitsOn store last i j ∧
        last.beans[j]? = some other ∧ other.id = id := by
  obtain ⟨bean, hb, hu⟩ := mem_satisfying.mp hi
  obtain ⟨ids, ho⟩ := h.pending i bean hb (Bean.isUndecided_iff.mp hu)
  have hw : waitsOn (last.outcomeAt store i bean) = ids := by
    rw [ho]
    rfl
  cases hc : bean.condition with
  | none =>
    unfold outcomeAt at ho
    rw [hc] at ho
    cases ho
  | some condition =>
    have hpending : condition.evaluate store (last.lookup (some i)) = .ok (.pending ids) := by
      unfold outcomeAt at ho
      rw [hc] at ho
      exact ho
    obtain ⟨hids, selector, hs, he⟩ := Condition.evaluate_pending condition hpending
    refine ⟨bean, hb, hw ▸ hids, fun id hid => ?_⟩
    have hfound : id ∈ (last.lookup (some i) selector).pending := he ▸ hw ▸ hid
    obtain ⟨j, other, hj, rfl, hij, hju, haccepts⟩ := mem_lookup_pending hfound
    refine ⟨j, other, ?_, hj, rfl⟩
    exact {
      undecided := hi
      awaited := mem_satisfying.mpr ⟨other, hj, hju⟩
      refers := ⟨hij, bean, other, condition, hb, hj, hc, selector, hs, haccepts⟩
      pending := ⟨bean, other, hb, hj, hid⟩ }

/-! ### Circles -/

/-- Among finitely many positions, each of which leads to one of them, every one leads into a
circle. -/
theorem exists_cycle {r : ℕ → ℕ → Prop} {positions : List ℕ}
    (h : ∀ i ∈ positions, ∃ j ∈ positions, r i j) {i : ℕ} (hi : i ∈ positions) :
    ∃ j, ReflTransGen r i j ∧ TransGen r j j := by
  by_contra! hno
  -- without a circle, some position behind `i` has none behind it
  let Behind := { j // j ∈ positions ∧ ReflTransGen r i j }
  have : Finite Behind :=
    ((List.finite_toSet positions).subset fun j hj => hj.1).to_subtype
  let later : Behind → Behind → Prop := fun a b => TransGen r b a
  have : IsTrans Behind later := ⟨fun _ _ _ hab hbc => hbc.trans hab⟩
  have : Std.Irrefl later := ⟨fun a => hno a a.2.2⟩
  obtain ⟨⟨j, hj, hij⟩, -, hlast⟩ := (Finite.wellFounded_of_trans_of_irrefl later).has_min
    Set.univ ⟨⟨i, hi, .refl⟩, trivial⟩
  obtain ⟨k, hk, hjk⟩ := h j hj
  exact hlast ⟨k, hk, hij.tail hjk⟩ trivial (.single hjk)

theorem Settled.exists_waitsOn (h : Settled store start last) {i : ℕ}
    (hi : i ∈ last.satisfying (·.isUndecided)) :
    ∃ j ∈ last.satisfying (·.isUndecided), WaitsOn store last i j := by
  obtain ⟨bean, -, hids, hw⟩ := h.waits hi
  obtain ⟨id, hid⟩ := List.exists_mem_of_ne_nil _ hids
  obtain ⟨j, -, hj, -⟩ := hw id hid
  exact ⟨j, hj.awaited, hj⟩

/-- Where the passes end, what an undecided bean waits on leads into a circle. -/
theorem Settled.cycle (h : Settled store start last) {i : ℕ}
    (hi : i ∈ last.satisfying (·.isUndecided)) :
    ∃ j, ReflTransGen (WaitsOn store last) i j ∧ TransGen (WaitsOn store last) j j :=
  exists_cycle (fun _ => h.exists_waitsOn) hi

/-- A bean whose references lead into no circle is decided. -/
theorem Settled.decided (h : Settled store start last) {i : ℕ}
    (hi : ∀ j, ReflTransGen start.RefersTo i j → ¬ TransGen start.RefersTo j j) :
    i ∉ last.satisfying (·.isUndecided) := by
  intro hu
  obtain ⟨j, hij, hjj⟩ := h.cycle hu
  have hrefers : ∀ a b, WaitsOn store last a b → start.RefersTo a b :=
    fun _ _ hw => (ahead_of_reaches h.reaches).refersTo hw.refers
  exact hi j (ReflTransGen.mono hrefers i j hij) (TransGen.mono hrefers j j hjj)

/-! ### The report -/

/-- What is said about a bean that is left undecided: its id, and the ids that it waits on, each of
which is that of another bean that is left undecided. -/
structure Entry (store : Store) (last : Registry) (i : ℕ) (entry : String × List String) : Prop where
  id : ∃ bean, last.beans[i]? = some bean ∧ bean.id = entry.1
  ids : entry.2 ≠ []
  waits : ∀ id ∈ entry.2, ∃ j other, WaitsOn store last i j ∧ last.beans[j]? = some other ∧
    other.id = id

theorem forall₂_filterMap {α β : Type} {f : α → Option β} {R : α → β → Prop} {as : List α}
    (h : ∀ a ∈ as, ∃ b, f a = some b ∧ R a b) : List.Forall₂ R as (as.filterMap f) := by
  induction as with
  | nil => exact .nil
  | cons a rest ih =>
    obtain ⟨b, hf, hr⟩ := h a List.mem_cons_self
    rw [List.filterMap_cons, hf]
    exact .cons hr (ih fun a' ha' => h a' (List.mem_cons_of_mem a ha'))

theorem Settled.entries (h : Settled store start last) :
    List.Forall₂ (Entry store last) (last.satisfying (·.isUndecided)) (last.waiting store) := by
  refine forall₂_filterMap fun i hi => ?_
  obtain ⟨bean, hb, hids, hw⟩ := h.waits hi
  rw [hb]
  exact ⟨_, rfl, ⟨bean, hb, rfl⟩, hids, hw⟩

/-- A pass where the passes end decides nothing. -/
theorem Settled.pass (h : Settled store start last) : pass store last = .ok last := by
  have hstill : ∀ i, decideAt store last i = .ok last := by
    intro i
    unfold decideAt
    cases hb : last.beans[i]? with
    | none => rfl
    | some bean =>
      dsimp only
      split_ifs with hu
      · have hs := Bean.isUndecided_iff.mp hu
        obtain ⟨ids, ho⟩ := h.pending i bean hb hs
        rw [ho]
        show Except.ok (last.setStatus i .default) = Except.ok last
        rw [← hs, setStatus_self hb]
      · rfl
  unfold Registry.pass
  induction last.indices with
  | nil => rfl
  | cons i rest ih =>
    rw [List.foldlM_cons, hstill i]
    exact ih

/-- The passes over `registry` are stuck at `last`, and `waiting` says why: no bean changed but by
a decision, a further pass decides nothing, and some beans are left. Each of them has its entry, in
their order, and following what it waits on leads into a circle. -/
structure Stuck (store : Store) (registry last : Registry)
    (waiting : List (String × List String)) : Prop where
  settled : settle store registry = .ok last
  definitions : last.beans.map (·.toDefinition) = registry.beans.map (·.toDefinition)
  still : Registry.pass store last = .ok last
  left : last.satisfying (·.isUndecided) ≠ []
  entries : List.Forall₂ (Entry store last) (last.satisfying (·.isUndecided)) waiting
  cycle : ∀ i ∈ last.satisfying (·.isUndecided), ∃ j,
    ReflTransGen (WaitsOn store last) i j ∧ TransGen (WaitsOn store last) j j

theorem waiting_of_resolve {waiting : List (String × List String)}
    (h : resolve store registry = .error (.lookup (.stuck waiting))) :
    ∃ last, settle store registry = .ok last ∧ last.waiting store = waiting ∧ waiting ≠ [] := by
  rcases hr : registry.refused? with _ | ⟨id, reason⟩
  · rcases hs : settle store registry with fault | last
    · rw [resolve_of_fault hr hs] at h
      obtain ⟨-, -, bean, cause, -, -, -, -, hf⟩ := fault_of_settle hs
      rw [hf] at h
      cases h
    · rw [resolve_of_settle hr hs] at h
      rcases hw : last.waiting store with _ | ⟨entry, rest⟩ <;> rw [hw] at h
      · dsimp only at h
        split at h <;> cases h
      · cases h
        exact ⟨last, rfl, hw, List.cons_ne_nil entry rest⟩
  · unfold resolve at h
    rw [hr] at h
    cases h

theorem stuck_of_resolve {waiting : List (String × List String)}
    (h : resolve store registry = .error (.lookup (.stuck waiting))) :
    ∃ last, Stuck store registry last waiting := by
  obtain ⟨last, hs, rfl, hne⟩ := waiting_of_resolve h
  have hsettled := settled_of_settle hs
  refine ⟨last, ?_⟩
  exact {
    settled := hs
    definitions := (ahead_of_reaches hsettled.reaches).definitions
    still := hsettled.pass
    left := fun hnil => hne (by rw [waiting, hnil, List.filterMap_nil])
    entries := hsettled.entries
    cycle := fun _ => hsettled.cycle }

/-- **Beans that are stuck are all reported, and wait in a circle.** When a resolution ends because
no pass decides anything, the message lists the undecided beans in their order, each with ids that
it waits on, all of them ids of others that are listed, and following these leads into a circle. A
bean whose condition does not lead into a circle of references is decided; so beans that refer to
each other without a circle are never stuck. -/
theorem resolve_stuck (store : Store) (registry : Registry) :
    (∀ waiting, resolve store registry = .error (.lookup (.stuck waiting)) →
      (Fault.lookup (.stuck waiting)).kind = .unresolved ∧
      (Fault.lookup (.stuck waiting)).message =
        "beans can't be resolved: " ++ "; ".intercalate (waiting.map fun (bean, ids) =>
          bean ++ " (waiting on: " ++ ", ".intercalate ids ++ ")") ∧
      ∃ last, Stuck store registry last waiting) ∧
    (∀ last, settle store registry = .ok last → ∀ i,
      (∀ j, ReflTransGen registry.RefersTo i j → ¬ TransGen registry.RefersTo j j) →
        i ∉ last.satisfying (·.isUndecided)) ∧
    ((∀ i, ¬ TransGen registry.RefersTo i i) →
      ∀ waiting, resolve store registry ≠ .error (.lookup (.stuck waiting))) := by
  refine ⟨fun waiting h => ⟨rfl, rfl, stuck_of_resolve h⟩,
    fun last hs i => (settled_of_settle hs).decided, fun hacyclic waiting h => ?_⟩
  obtain ⟨last, hstuck⟩ := stuck_of_resolve h
  refine hstuck.left (List.eq_nil_iff_forall_not_mem.mpr fun i => ?_)
  exact (settled_of_settle hstuck.settled).decided fun j _ => hacyclic j

/-- Two beans, each of which is there unless the other one is. -/
def standoff : List Definition :=
  [conditional "x" (.onMissingBean (.named "y")), conditional "y" (.onMissingBean (.named "x"))]

theorem resolve_stuck_standoff :
    resolve .empty (ofDefinitions standoff) =
      .error (.lookup (.stuck [("x", ["y"]), ("y", ["x"])])) ∧
    (∃ last, Stuck .empty (ofDefinitions standoff) last [("x", ["y"]), ("y", ["x"])]) ∧
    ∀ waiting, resolve .empty (ofDefinitions chain) ≠ .error (.lookup (.stuck waiting)) := by
  have h : resolve .empty (ofDefinitions standoff) =
      .error (.lookup (.stuck [("x", ["y"]), ("y", ["x"])])) := by cbv
  refine ⟨h, ((resolve_stuck .empty _).1 _ h).2.2, (resolve_stuck .empty _).2.2 ?_⟩
  have hlater : ∀ i j, (ofDefinitions chain).RefersTo i j → i < j := by
    rintro i j ⟨-, bean, other, condition, hb, ho, hc, selector, hs, haccepts⟩
    rcases i with _ | _ | _ | i
    · cases hb
      cases hc
      obtain rfl : selector = .named "b" := by simpa [Condition.selectors] using hs
      rcases j with _ | j
      · cases ho
        exact absurd haccepts (by decide)
      · omega
    · cases hb
      cases hc
      obtain rfl : selector = .named "c" := by
        simpa [Condition.selectors, Condition.selectorsOf] using hs
      rcases j with _ | _ | j
      · cases ho
        exact absurd haccepts (by decide)
      · cases ho
        exact absurd haccepts (by decide)
      · omega
    · cases hb
      cases hc
      simp [Condition.selectors] at hs
    · cases hb
  intro i hi
  have hlt := TransGen.mono hlater i i hi
  rw [Relation.transGen_eq_self] at hlt
  exact Nat.lt_irrefl i hlt

end Registry
end BeanContainer
