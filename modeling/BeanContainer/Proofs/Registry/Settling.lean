/-
# Passes over undecided beans

A pass decides beans one after the other, and each decision may settle the conditions of others.
Decisions are never taken back, and an outcome that is not pending stays
(`Condition.evaluate_settled`), so every decision is right in every later registry. The passes end
with a registry in which each decided bean is decided by its condition and each undecided one is
pending; there is only one such registry, whatever the order of the beans.

Key definitions: `Registry.Decides`, `Registry.Justified`, `Registry.Settled`.
Key theorems: `Registry.settled_of_settle`, `Registry.fault_of_settle`, `Registry.Settled.ahead`,
`Registry.Settled.no_fault`.
-/
import BeanContainer.Proofs.Registry.Lookup
import BeanContainer.Registry.Resolution
import Mathlib.Logic.Relation

namespace BeanContainer
namespace Registry

open Condition (Undecided)

variable {store : Store} {registry later next start last other : Registry} {σ : Equiv.Perm ℕ}

/-! ### One decision -/

/-- The condition of an undecided bean decides it. -/
def Decides (store : Store) (registry next : Registry) : Prop :=
  ∃ i bean outcome, registry.beans[i]? = some bean ∧ bean.status = .default ∧
    registry.outcomeAt store i bean = .ok outcome ∧ statusOf outcome ≠ .default ∧
    next = registry.setStatus i (statusOf outcome)

/-- Conditions decide beans, one after the other. -/
abbrev Reaches (store : Store) : Registry → Registry → Prop :=
  Relation.ReflTransGen (Decides store)

theorem setStatus_self {i : ℕ} {bean : Bean} (hb : registry.beans[i]? = some bean) :
    registry.setStatus i bean.status = registry := by
  have hl : (registry.setStatus i bean.status).beans = registry.beans := by
    refine List.ext_getElem? fun j => ?_
    rw [getElem?_setStatus]
    split
    · rename_i hij
      rw [← hij, hb]
      rfl
    · rfl
  exact congrArg Registry.mk hl

/-- One bean is decided, or nothing happens. -/
theorem decideAt_ok {i : ℕ} (h : decideAt store registry i = .ok next) :
    next = registry ∨ Decides store registry next := by
  unfold decideAt at h
  rcases hb : registry.beans[i]? with _ | bean
  · rw [hb] at h
    cases h
    exact .inl rfl
  rw [hb] at h
  dsimp only at h
  split_ifs at h with hu
  · rcases ho : registry.outcomeAt store i bean with fault | outcome
    · rw [ho] at h
      cases h
    · rw [ho] at h
      cases h
      rw [Bean.isUndecided_iff] at hu
      by_cases hd : statusOf outcome = .default
      · rw [hd, ← hu, setStatus_self hb]
        exact .inl rfl
      · exact .inr ⟨i, bean, outcome, hb, hu, ho, hd, rfl⟩
  · cases h
    exact .inl rfl

/-- Only the fault of a condition keeps a bean from being looked at. -/
theorem decideAt_error {i : ℕ} {fault : Fault} (h : decideAt store registry i = .error fault) :
    ∃ bean cause, registry.beans[i]? = some bean ∧ bean.status = .default ∧
      registry.outcomeAt store i bean = .error cause ∧ fault = .conditionFailed bean.id cause := by
  unfold decideAt at h
  rcases hb : registry.beans[i]? with _ | bean
  · rw [hb] at h
    cases h
  rw [hb] at h
  dsimp only at h
  split_ifs at h with hu
  rcases ho : registry.outcomeAt store i bean with cause | outcome
  · rw [ho] at h
    cases h
    exact ⟨bean, cause, rfl, Bean.isUndecided_iff.mp hu, ho, rfl⟩
  · rw [ho] at h
    cases h

/-- A bean that is looked at and stays undecided is pending. -/
theorem undecided_of_decideAt {i : ℕ} {bean : Bean}
    (h : decideAt store registry i = .ok registry) (hb : registry.beans[i]? = some bean)
    (hu : bean.status = .default) : Undecided (registry.outcomeAt store i bean) := by
  unfold decideAt at h
  rw [hb] at h
  dsimp only at h
  rw [if_pos (Bean.isUndecided_iff.mpr hu)] at h
  rcases ho : registry.outcomeAt store i bean with cause | outcome
  · rw [ho] at h
    cases h
  rw [ho] at h
  injection h with h
  have hs : some { bean with status := statusOf outcome } = some bean := by
    rw [← hb]
    conv_rhs => rw [← h]
    rw [getElem?_setStatus, if_pos rfl, hb]
    rfl
  injection hs with hs
  have hd := congrArg Bean.status hs
  rw [hu] at hd
  cases outcome with
  | matched => cases hd
  | unmatched => cases hd
  | pending ids => exact ⟨ids, rfl⟩

theorem Decides.ahead (h : Decides store registry next) :
    Ahead (Equiv.refl ℕ) registry next := by
  obtain ⟨i, bean, outcome, hb, hu, -, -, rfl⟩ := h
  intro j
  show Option.Rel _ registry.beans[j]? (registry.setStatus i _).beans[j]?
  rw [getElem?_setStatus]
  split
  · rename_i hij
    rw [← hij, hb]
    exact .some ⟨rfl, fun hd => absurd hu hd⟩
  · exact Ahead.refl registry j

theorem Decides.undecided_lt (h : Decides store registry next) :
    next.undecided < registry.undecided := by
  obtain ⟨i, bean, outcome, hb, hu, -, hd, rfl⟩ := h
  have hmem : i ∈ registry.satisfying (·.isUndecided) :=
    mem_satisfying.mpr ⟨bean, hb, Bean.isUndecided_iff.mpr hu⟩
  have hset : (registry.setStatus i (statusOf outcome)).satisfying (·.isUndecided) =
      (registry.satisfying (·.isUndecided)).filter (· ≠ i) := by
    unfold satisfying indices
    rw [length_setStatus, List.filter_filter]
    refine List.filter_congr fun j _ => ?_
    unfold satisfies
    rw [getElem?_setStatus]
    by_cases hij : i = j
    · rw [if_pos hij, ← hij, hb]
      simpa [Bean.isUndecided] using hd
    · rw [if_neg hij]
      simp [Ne.symm hij]
  unfold undecided
  rw [hset]
  exact List.length_filter_lt_length_iff_exists.mpr ⟨i, hmem, by simp⟩

/-! ### Decisions one after the other -/

theorem ahead_of_reaches (h : Reaches store registry next) :
    Ahead (Equiv.refl ℕ) registry next := by
  induction h with
  | refl => exact Ahead.refl registry
  | tail _ hd ih => exact ih.trans hd.ahead

theorem undecided_le_of_reaches (h : Reaches store registry next) :
    next.undecided ≤ registry.undecided := by
  induction h with
  | refl => exact Nat.le_refl _
  | tail _ hd ih => exact Nat.le_trans (Nat.le_of_lt hd.undecided_lt) ih

theorem eq_of_reaches (h : Reaches store registry next)
    (he : registry.undecided ≤ next.undecided) : next = registry := by
  rcases Relation.ReflTransGen.cases_head h with h | ⟨middle, hd, hr⟩
  · exact h.symm
  · have h1 := hd.undecided_lt
    have h2 := undecided_le_of_reaches hr
    omega

/-- An outcome that is not pending is the same in every registry that has decided more. -/
theorem outcomeAt_settled (h : Ahead σ registry later) {i : ℕ} {bean after : Bean}
    (hb : bean.Settles after) (hd : ¬ Undecided (registry.outcomeAt store i bean)) :
    later.outcomeAt store (σ i) after = registry.outcomeAt store i bean := by
  have hc : after.condition = bean.condition := by rw [hb.same]
  unfold outcomeAt at hd ⊢
  rw [hc]
  revert hd
  cases bean.condition with
  | none => exact fun _ => rfl
  | some condition => exact Condition.evaluate_settled (h.lookup i) condition

theorem not_undecided {outcome : Outcome} (h : statusOf outcome ≠ .default) :
    ¬ Undecided (.ok outcome) := by
  rintro ⟨ids, hids⟩
  cases hids
  exact h rfl

/-- Every bean that is decided in `registry` was decided in `start`, or its condition decides it
in this way. -/
def Justified (store : Store) (start registry : Registry) : Prop :=
  ∀ i bean, registry.beans[i]? = some bean → bean.status ≠ .default →
    start.beans[i]? = some bean ∨
      ∃ outcome, registry.outcomeAt store i bean = .ok outcome ∧ bean.status = statusOf outcome

/-- A decision is right, and earlier ones stay right. -/
theorem Justified.decides (hj : Justified store start registry)
    (h : Decides store registry next) : Justified store start next := by
  have ha := h.ahead
  intro j after hafter hd
  obtain ⟨i, bean, outcome, hb, hu, ho, hn, rfl⟩ := h
  by_cases hij : i = j
  · subst hij
    obtain ⟨bean', hb', hs⟩ := ha.before hafter
    rw [hb] at hb'
    cases hb'
    rw [getElem?_setStatus, if_pos rfl, hb] at hafter
    cases hafter
    refine .inr ⟨outcome, ?_, rfl⟩
    rw [← ho]
    exact outcomeAt_settled ha hs (ho ▸ not_undecided hn)
  · have hbefore := hafter
    rw [getElem?_setStatus, if_neg hij] at hbefore
    rcases hj j after hbefore hd with hfirst | ⟨outcome', ho', hs'⟩
    · exact .inl hfirst
    · refine .inr ⟨outcome', ?_, hs'⟩
      rw [← ho']
      refine outcomeAt_settled ha ⟨rfl, fun _ => rfl⟩ (ho' ▸ not_undecided ?_)
      rw [← hs']
      exact hd

theorem justified_of_reaches (h : Reaches store start registry) :
    Justified store start registry := by
  induction h with
  | refl => exact fun _ _ hb _ => .inl hb
  | tail _ hd ih => exact ih.decides hd

/-! ### The end of the passes -/

/-- The passes from `start` end with `last`: decisions lead to it, and every bean that is left
undecided is pending. -/
structure Settled (store : Store) (start last : Registry) : Prop where
  reaches : Reaches store start last
  pending : ∀ i bean, last.beans[i]? = some bean → bean.status = .default →
    Undecided (last.outcomeAt store i bean)

/-- Some beans in a row: decisions lead to the result, and if none was made, each bean was looked
at in the registry as it is. -/
theorem fold_ok {positions : List ℕ} :
    positions.foldlM (decideAt store) registry = .ok next →
      Reaches store registry next ∧ (registry.undecided ≤ next.undecided →
        ∀ i ∈ positions, decideAt store registry i = .ok registry) := by
  induction positions generalizing registry with
  | nil =>
    intro h
    cases h
    exact ⟨.refl, fun _ i hi => absurd hi List.not_mem_nil⟩
  | cons i rest ih =>
    intro h
    rw [List.foldlM_cons] at h
    rcases hd : decideAt store registry i with fault | middle
    · rw [hd] at h
      cases h
    rw [hd] at h
    obtain ⟨hr, hsame⟩ := ih h
    have hm : Reaches store registry middle := by
      rcases decideAt_ok hd with rfl | hdec
      · exact .refl
      · exact .single hdec
    refine ⟨hm.trans hr, fun hle j hj => ?_⟩
    have h1 := undecided_le_of_reaches hr
    have h2 := undecided_le_of_reaches hm
    obtain rfl := eq_of_reaches hm (by omega)
    rcases List.mem_cons.mp hj with rfl | hj
    · exact hd
    · exact hsame (by omega) j hj

theorem fold_error {positions : List ℕ} {fault : Fault} :
    positions.foldlM (decideAt store) registry = .error fault →
      ∃ middle i, Reaches store registry middle ∧ decideAt store middle i = .error fault := by
  induction positions generalizing registry with
  | nil =>
    intro h
    cases h
  | cons i rest ih =>
    intro h
    rw [List.foldlM_cons] at h
    rcases hd : decideAt store registry i with fault' | middle
    · rw [hd] at h
      cases h
      exact ⟨registry, i, .refl, hd⟩
    · rw [hd] at h
      obtain ⟨far, j, hr, he⟩ := ih h
      refine ⟨far, j, ?_, he⟩
      rcases decideAt_ok hd with rfl | hdec
      · exact hr
      · exact .head hdec hr

/-- A pass that decides nothing is the last one. -/
theorem settled_of_pass (h : pass store registry = .ok next)
    (hle : registry.undecided ≤ next.undecided) : Settled store registry next := by
  obtain ⟨hr, hsame⟩ := fold_ok h
  obtain rfl := eq_of_reaches hr hle
  refine ⟨.refl, fun i bean hb hu => ?_⟩
  have hi : i < next.beans.length := (List.getElem?_eq_some_iff.mp hb).1
  exact undecided_of_decideAt (hsame hle i (List.mem_range.mpr hi)) hb hu

/-- The passes over the beans: `Passes store registry n result` says that the `n`-th one ends
them. -/
inductive Passes (store : Store) : Registry → ℕ → Except Fault Registry → Prop
  | failed {registry : Registry} {fault : Fault} :
    pass store registry = .error fault → Passes store registry 1 (.error fault)
  | last {registry next : Registry} : pass store registry = .ok next →
    ¬ next.undecided < registry.undecided → Passes store registry 1 (.ok next)
  | more {registry next : Registry} {n : ℕ} {result : Except Fault Registry} :
    pass store registry = .ok next → next.undecided < registry.undecided →
    Passes store next n result → Passes store registry (n + 1) result

/-- There is at most one pass for each undecided bean, and one in which none is decided. -/
theorem passes_settle (store : Store) (registry : Registry) :
    ∃ n ≤ registry.undecided + 1, Passes store registry n (settle store registry) := by
  induction registry using settle.induct with
  | case1 registry ih =>
    rw [settle]
    rcases hp : pass store registry with fault | next
    · exact ⟨1, by omega, .failed hp⟩
    · by_cases hlt : next.undecided < registry.undecided
      · obtain ⟨n, hn, hs⟩ := ih next hlt
        refine ⟨n + 1, by omega, .more hp hlt ?_⟩
        show Passes store next n (if _ then _ else _)
        rw [if_pos hlt]
        exact hs
      · refine ⟨1, by omega, ?_⟩
        show Passes store registry 1 (if _ then _ else _)
        rw [if_neg hlt]
        exact .last hp hlt

theorem Passes.settled {n : ℕ} {result : Except Fault Registry}
    (h : Passes store start n result) : ∀ last, result = .ok last → Settled store start last := by
  induction h with
  | failed hp => exact fun _ he => nomatch he
  | last hp hle =>
    intro last he
    cases he
    exact settled_of_pass hp (by omega)
  | more hp _ _ ih =>
    intro last he
    have hs := ih last he
    exact ⟨(fold_ok hp).1.trans hs.reaches, hs.pending⟩

theorem Passes.fault {n : ℕ} {result : Except Fault Registry} (h : Passes store start n result) :
    ∀ fault, result = .error fault →
      ∃ middle i, Reaches store start middle ∧ decideAt store middle i = .error fault := by
  induction h with
  | failed hp =>
    intro fault he
    cases he
    exact fold_error hp
  | last => exact fun _ he => nomatch he
  | more hp _ _ ih =>
    intro fault he
    obtain ⟨middle, i, hr, hd⟩ := ih fault he
    exact ⟨middle, i, (fold_ok hp).1.trans hr, hd⟩

theorem settled_of_settle (h : settle store start = .ok last) : Settled store start last := by
  obtain ⟨n, -, hp⟩ := passes_settle store start
  exact hp.settled last h

theorem fault_of_settle {fault : Fault} (h : settle store start = .error fault) :
    ∃ middle i bean cause, Reaches store start middle ∧ middle.beans[i]? = some bean ∧
      bean.status = .default ∧ middle.outcomeAt store i bean = .error cause ∧
      fault = .conditionFailed bean.id cause := by
  obtain ⟨n, -, hp⟩ := passes_settle store start
  obtain ⟨middle, i, hr, hd⟩ := hp.fault fault h
  obtain ⟨bean, cause, h1, h2, h3, h4⟩ := decideAt_error hd
  exact ⟨middle, i, bean, cause, hr, h1, h2, h3, h4⟩

/-! ### The order of the beans -/

/-- In the end a bean that was undecided at the start has the status of its outcome. -/
theorem Settled.status_eq (h : Settled store start last) {i : ℕ} {first bean : Bean}
    (hf : start.beans[i]? = some first) (hu : first.status = .default)
    (hb : last.beans[i]? = some bean) :
    ∃ outcome, last.outcomeAt store i bean = .ok outcome ∧ bean.status = statusOf outcome := by
  by_cases hd : bean.status = .default
  · obtain ⟨ids, hids⟩ := h.pending i bean hb hd
    exact ⟨.pending ids, hids, hd⟩
  · rcases justified_of_reaches h.reaches i bean hb hd with hfirst | hout
    · rw [hf] at hfirst
      cases hfirst
      exact absurd hu hd
    · exact hout

/-- Whatever decisions are made, they are those of the registry in which the passes end, for every
order of the beans. -/
theorem Settled.ahead (hs : Settled store other last) (ho : Reordered σ start other)
    (h : Reaches store start registry) : Ahead σ registry last := by
  induction h with
  | refl => exact ho.ahead.trans (ahead_of_reaches hs.reaches)
  | @tail registry next hr hd ih =>
    obtain ⟨i, bean, outcome, hb, hu, hout, hn, rfl⟩ := hd
    intro j
    rw [getElem?_setStatus]
    by_cases hij : i = j
    · subst hij
      rw [if_pos rfl, hb]
      obtain ⟨after, ha, hsettles⟩ := ih.after hb
      obtain ⟨first, hf, hfirst⟩ := (ahead_of_reaches hr).before (σ := Equiv.refl ℕ) hb
      have hfu : first.status = .default := by
        by_contra hne
        exact hne ((hfirst.kept hne) ▸ hu)
      obtain ⟨outcome', hout', hstatus⟩ := hs.status_eq ((ho i).trans hf) hfu ha
      have hsame := outcomeAt_settled ih hsettles (hout ▸ not_undecided hn)
      rw [hout, hout'] at hsame
      cases hsame
      rw [ha]
      refine .some ⟨?_, fun _ => ?_⟩
      · show after = { bean with status := after.status }
        exact hsettles.same
      · rw [← hstatus]
        exact hsettles.same
    · rw [if_neg hij]
      exact ih j

/-- Where the passes end, no condition fails, in no order of the beans. -/
theorem Settled.no_fault (hs : Settled store other last) (ho : Reordered σ start other)
    (h : Reaches store start registry) {i : ℕ} {bean : Bean} (hb : registry.beans[i]? = some bean)
    (hu : bean.status = .default) (cause : Fault) :
    registry.outcomeAt store i bean ≠ .error cause := by
  intro he
  obtain ⟨after, ha, hsettles⟩ := (hs.ahead ho h).after hb
  obtain ⟨first, hf, hfirst⟩ := (ahead_of_reaches h).before (σ := Equiv.refl ℕ) hb
  have hfu : first.status = .default := by
    by_contra hne
    exact hne ((hfirst.kept hne) ▸ hu)
  obtain ⟨outcome, hout, -⟩ := hs.status_eq ((ho i).trans hf) hfu ha
  have hdecided : ¬ Undecided (registry.outcomeAt store i bean) := by
    rintro ⟨ids, hids⟩
    rw [he] at hids
    cases hids
  have hsame := outcomeAt_settled (hs.ahead ho h) hsettles hdecided
  rw [hout, he] at hsame
  cases hsame

end Registry
end BeanContainer
