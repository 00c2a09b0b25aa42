/-
# Conditions while beans are being decided

A condition sees the other beans through lookups that split them into resolved and pending ones.
Deciding a pending bean moves it to the resolved ones or drops it. An outcome that is not pending
rests on what can't change by that: it is the same in every later lookup, for every form of
condition. An outcome that is pending names the beans that one of the condition's lookups found
undecided.

Key definitions: `BeanLookup.Settles`, `Condition.Undecided`, `Condition.selectors`.
Key theorems: `Condition.evaluate_settled`, `Condition.evaluate_pending`.
-/
import BeanContainer.Condition

namespace BeanContainer

/-- `later` is what `found` may become once some of its pending beans are decided: what was
resolved stays, and nothing comes from elsewhere. -/
structure BeanLookup.Settles (found later : BeanLookup) : Prop where
  resolved : found.resolved.length ≤ later.resolved.length
  total : later.resolved.length + later.pending.length ≤
    found.resolved.length + found.pending.length

namespace Condition

/-- The result of an evaluation that waits on other beans. -/
def Undecided (result : Except Fault Outcome) : Prop := ∃ ids, result = .ok (.pending ids)

variable {store : Store} {lookup later : Selector → BeanLookup}

theorem isEmpty_settled {found later : BeanLookup} (h : found.Settles later)
    (hr : found.resolved.isEmpty = false) : later.resolved.isEmpty = false := by
  have h1 := h.resolved
  rw [List.isEmpty_eq_false_iff, ← List.length_pos_iff] at hr ⊢
  omega

theorem eq_nil_settled {found later : BeanLookup} (h : found.Settles later)
    (hr : found.resolved.isEmpty = true) (hp : found.pending.isEmpty = true) :
    later.resolved.isEmpty = true ∧ later.pending.isEmpty = true := by
  have h1 := h.total
  simp only [List.isEmpty_iff] at hr hp ⊢
  rw [hr, hp] at h1
  simp only [List.length_nil, Nat.add_zero, Nat.le_zero, Nat.add_eq_zero_iff,
    List.length_eq_zero_iff] at h1
  exact h1

/-- The outcome of a condition that asks whether a lookup finds beans. -/
theorem onBean_settled {found later : BeanLookup} (h : found.Settles later) (yes no : Outcome)
    (hd : ¬ Undecided (.ok (if !found.resolved.isEmpty then yes
      else if !found.pending.isEmpty then .pending found.pending else no))) :
    (if !later.resolved.isEmpty then yes
      else if !later.pending.isEmpty then .pending later.pending else no) =
    (if !found.resolved.isEmpty then yes
      else if !found.pending.isEmpty then Outcome.pending found.pending else no) := by
  cases hr : found.resolved.isEmpty with
  | false => simp [isEmpty_settled h hr]
  | true =>
    cases hp : found.pending.isEmpty with
    | false =>
      refine absurd ⟨found.pending, ?_⟩ hd
      simp [hr, hp]
    | true =>
      obtain ⟨h1, h2⟩ := eq_nil_settled h hr hp
      simp [h1, h2]

theorem onSingleBean_settled {found later : BeanLookup} (h : found.Settles later)
    (hd : ¬ Undecided (.ok (if 1 < found.resolved.length then .unmatched
      else if !found.pending.isEmpty then .pending found.pending
      else .ofBool (found.resolved.length == 1)))) :
    (if 1 < later.resolved.length then .unmatched
      else if !later.pending.isEmpty then .pending later.pending
      else .ofBool (later.resolved.length == 1)) =
    (if 1 < found.resolved.length then Outcome.unmatched
      else if !found.pending.isEmpty then .pending found.pending
      else .ofBool (found.resolved.length == 1)) := by
  have h1 := h.resolved
  have h2 := h.total
  by_cases hr : 1 < found.resolved.length
  · rw [if_pos hr, if_pos (by omega)]
  · cases hp : found.pending with
    | cons a l =>
      refine absurd ⟨found.pending, ?_⟩ hd
      simp [hr, hp]
    | nil =>
      rw [hp, List.length_nil] at h2
      have h3 : later.pending = [] := by
        rw [← List.length_eq_zero_iff]
        omega
      have h4 : later.resolved.length = found.resolved.length := by
        rw [h3, List.length_nil] at h2
        omega
      rw [h3, h4]

/-- What is decided after a step that passes a pending outcome on was decided before it. -/
theorem not_undecided_of_bind {result : Except Fault Outcome}
    {next : Outcome → Except Fault Outcome}
    (hd : ¬ Undecided (result >>= next)) (hn : ∀ ids, next (.pending ids) = .ok (.pending ids)) :
    ¬ Undecided result := by
  rintro ⟨ids, rfl⟩
  exact hd ⟨ids, hn ids⟩

mutual

/-- **A decided outcome stays.** Unless a condition is pending, its outcome, be it a fault, is the
same once more beans are decided. -/
theorem evaluate_settled (h : ∀ selector, (lookup selector).Settles (later selector)) :
    ∀ condition : Condition, ¬ Undecided (condition.evaluate store lookup) →
      condition.evaluate store later = condition.evaluate store lookup
  | onProperty .., _ | onMissingProperty _, _ | onExpression _, _ | onFunction _, _
  | always, _ => by simp only [evaluate]
  | onBean selector, hd => by
    simp only [evaluate] at hd ⊢
    rw [onBean_settled (h selector) _ _ hd]
  | onMissingBean selector, hd => by
    simp only [evaluate] at hd ⊢
    rw [onBean_settled (h selector) _ _ hd]
  | onSingleBean selector, hd => by
    simp only [evaluate] at hd ⊢
    rw [onSingleBean_settled (h selector) hd]
  | all conditions, hd => by
    simp only [evaluate] at hd ⊢
    exact evaluateAll_settled h conditions hd
  | any conditions, hd => by
    simp only [evaluate] at hd ⊢
    exact evaluateAny_settled h conditions hd
  | not condition, hd => by
    simp only [evaluate] at hd ⊢
    rw [evaluate_settled h condition (not_undecided_of_bind hd fun _ => rfl)]

theorem evaluateAll_settled (h : ∀ selector, (lookup selector).Settles (later selector)) :
    ∀ conditions : List Condition, ¬ Undecided (evaluateAll store lookup conditions) →
      evaluateAll store later conditions = evaluateAll store lookup conditions
  | [], _ => by simp only [evaluateAll]
  | condition :: rest, hd => by
    simp only [evaluateAll] at hd ⊢
    rw [evaluate_settled h condition (not_undecided_of_bind hd fun _ => rfl)]
    rcases he : condition.evaluate store lookup with fault | (_ | _ | ids)
    · rfl
    · rw [he] at hd
      exact evaluateAll_settled h rest hd
    · rfl
    · rfl

theorem evaluateAny_settled (h : ∀ selector, (lookup selector).Settles (later selector)) :
    ∀ conditions : List Condition, ¬ Undecided (evaluateAny store lookup conditions) →
      evaluateAny store later conditions = evaluateAny store lookup conditions
  | [], _ => by simp only [evaluateAny]
  | condition :: rest, hd => by
    simp only [evaluateAny] at hd ⊢
    rw [evaluate_settled h condition (not_undecided_of_bind hd fun _ => rfl)]
    rcases he : condition.evaluate store lookup with fault | (_ | _ | ids)
    · rfl
    · rfl
    · rw [he] at hd
      exact evaluateAny_settled h rest hd
    · rfl

end

/-! ### What a condition waits on -/

mutual

/-- The selectors that a condition looks beans up by, at any depth. -/
def selectors : Condition → List Selector
  | onBean selector | onMissingBean selector | onSingleBean selector => [selector]
  | all conditions | any conditions => selectorsOf conditions
  | not condition => condition.selectors
  | onProperty .. | onMissingProperty _ | onExpression _ | onFunction _ | always => []

/-- The selectors that the conditions look beans up by. -/
def selectorsOf : List Condition → List Selector
  | [] => []
  | condition :: rest => condition.selectors ++ selectorsOf rest

end

/-- `ids` are what one of the selectors finds undecided, which is not nothing. -/
def Awaited (lookup : Selector → BeanLookup) (selectors : List Selector) (ids : List String) :
    Prop :=
  ids ≠ [] ∧ ∃ selector ∈ selectors, ids = (lookup selector).pending

variable {ids : List String}

theorem Awaited.mono {selectors more : List Selector} (h : Awaited lookup selectors ids)
    (hs : ∀ selector ∈ selectors, selector ∈ more) : Awaited lookup more ids := by
  obtain ⟨hids, selector, hmem, he⟩ := h
  exact ⟨hids, selector, hs selector hmem, he⟩

theorem awaited_of_lookup {selector : Selector} {outcome : Outcome}
    (h : (if !(lookup selector).pending.isEmpty then .pending (lookup selector).pending
      else outcome) = .pending ids) (ho : outcome ≠ .pending ids) :
    Awaited lookup [selector] ids := by
  cases hp : (lookup selector).pending with
  | nil =>
    rw [hp] at h
    exact absurd h ho
  | cons id rest =>
    rw [hp] at h
    cases h
    exact ⟨List.cons_ne_nil id rest, selector, List.mem_singleton_self selector, hp.symm⟩

theorem not_undecided_ofBool (b : Bool) : ¬ Undecided (.ok (.ofBool b)) := by
  rintro ⟨ids, h⟩
  cases b <;> cases h

theorem not_undecided_map (result : Except Fault Bool) :
    ¬ Undecided (result.map Outcome.ofBool) := by
  rcases result with fault | b
  · rintro ⟨ids, h⟩
    cases h
  · exact not_undecided_ofBool b

mutual

/-- **What a pending condition waits on** are the undecided beans that one of its lookups finds. -/
theorem evaluate_pending : ∀ condition : Condition,
    condition.evaluate store lookup = .ok (.pending ids) →
      Awaited lookup condition.selectors ids
  | onProperty key having ifMissing, h => by
    unfold evaluate at h
    split at h
    · exact absurd ⟨ids, h⟩ (not_undecided_ofBool _)
    · cases having with
      | none => cases h
      | some wanted => exact absurd ⟨ids, h⟩ (not_undecided_map _)
  | onMissingProperty key, h => by
    unfold evaluate at h
    exact absurd ⟨ids, h⟩ (not_undecided_ofBool _)
  | onExpression predicate, h => by
    unfold evaluate at h
    exact absurd ⟨ids, h⟩ (not_undecided_map _)
  | onFunction decide, h => by
    unfold evaluate at h
    split at h
    · exact absurd ⟨ids, h⟩ (not_undecided_ofBool _)
    · cases h
  | always, h => by
    unfold evaluate at h
    cases h
  | onBean selector, h => by
    simp only [evaluate, Except.ok.injEq] at h
    split at h
    · cases h
    · exact awaited_of_lookup h nofun
  | onMissingBean selector, h => by
    simp only [evaluate, Except.ok.injEq] at h
    split at h
    · cases h
    · exact awaited_of_lookup h nofun
  | onSingleBean selector, h => by
    simp only [evaluate, Except.ok.injEq] at h
    split at h
    · cases h
    · exact awaited_of_lookup h fun ho => not_undecided_ofBool _ ⟨ids, congrArg Except.ok ho⟩
  | all conditions, h => by
    simp only [evaluate] at h
    exact evaluateAll_pending conditions h
  | any conditions, h => by
    simp only [evaluate] at h
    exact evaluateAny_pending conditions h
  | not condition, h => by
    simp only [evaluate] at h
    rcases he : condition.evaluate store lookup with fault | (_ | _ | ids') <;> rw [he] at h
    · cases h
    · cases h
    · cases h
    · cases h
      exact evaluate_pending condition he

theorem evaluateAll_pending : ∀ conditions : List Condition,
    evaluateAll store lookup conditions = .ok (.pending ids) →
      Awaited lookup (selectorsOf conditions) ids
  | [], h => by
    simp only [evaluateAll] at h
    cases h
  | condition :: rest, h => by
    simp only [evaluateAll] at h
    rcases he : condition.evaluate store lookup with fault | (_ | _ | ids') <;> rw [he] at h
    · cases h
    · exact (evaluateAll_pending rest h).mono fun _ => List.mem_append_right _
    · cases h
    · cases h
      exact (evaluate_pending condition he).mono fun _ => List.mem_append_left _

theorem evaluateAny_pending : ∀ conditions : List Condition,
    evaluateAny store lookup conditions = .ok (.pending ids) →
      Awaited lookup (selectorsOf conditions) ids
  | [], h => by
    simp only [evaluateAny] at h
    cases h
  | condition :: rest, h => by
    simp only [evaluateAny] at h
    rcases he : condition.evaluate store lookup with fault | (_ | _ | ids') <;> rw [he] at h
    · cases h
    · cases h
    · exact (evaluateAny_pending rest h).mono fun _ => List.mem_append_right _
    · cases h
      exact (evaluate_pending condition he).mono fun _ => List.mem_append_left _

end

/-! ### Conditions on decided beans -/

/-- A condition that sees decided beans alone is decided. -/
theorem evaluate_decided (h : ∀ selector, (lookup selector).pending = []) (condition : Condition) :
    ¬ Undecided (condition.evaluate store lookup) := by
  rintro ⟨ids, hids⟩
  obtain ⟨hne, selector, -, he⟩ := evaluate_pending condition hids
  exact hne (he.trans (h selector))

/-- Conditions that see equally many beans, all of them decided, decide alike. -/
theorem evaluate_eq (hl : ∀ s, (later s).resolved.length = (lookup s).resolved.length)
    (h : ∀ s, (lookup s).pending = []) (h' : ∀ s, (later s).pending = []) (condition : Condition) :
    condition.evaluate store later = condition.evaluate store lookup := by
  have hpending : ∀ s, (later s).resolved.length + (later s).pending.length =
      (lookup s).resolved.length + (lookup s).pending.length := by
    intro s
    rw [h, h', hl]
  exact evaluate_settled (fun s => ⟨Nat.le_of_eq (hl s).symm, Nat.le_of_eq (hpending s)⟩) condition
    (evaluate_decided h condition)

end Condition
end BeanContainer
