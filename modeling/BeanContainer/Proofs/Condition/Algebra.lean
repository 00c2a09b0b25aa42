/-
# The algebra of conditions

Negation moves into conjunctions and disjunctions and turns one into the other, two negations are
none, and parts may be grouped at will. The laws hold of everything an evaluation does: the outcome or
fault, and the leaves that it looks at, in their order. A condition is evaluated through its leaves
alone, so the laws are proved of an evaluation whose leaves are looked at in any monad.

Key definitions: `Condition.poll`, `Condition.trace`, `Condition.Interchangeable`.
Key theorems: `Condition.pollUntil_map_not`, `Condition.pollUntil_append`, `Condition.trace_fst`,
`Condition.combinators_interchangeable`.
-/
import BeanContainer.Condition

namespace BeanContainer

/-- The outcome of the negation. -/
def Outcome.opposite : Outcome → Outcome
  | matched => unmatched
  | unmatched => matched
  | pending ids => pending ids

@[simp] theorem Outcome.opposite_opposite (outcome : Outcome) :
    outcome.opposite.opposite = outcome := by
  cases outcome <;> rfl

theorem Outcome.opposite_inj {outcome other : Outcome} :
    outcome.opposite = other.opposite ↔ outcome = other :=
  ⟨fun h => by rw [← outcome.opposite_opposite, h, other.opposite_opposite], congrArg _⟩

namespace Condition

/-! ### Evaluation through the leaves -/

section

variable {m : Type → Type} [Monad m]

mutual

/-- The outcome of a condition whose leaves are looked at by `ask`. -/
def poll (ask : Condition → m Outcome) : Condition → m Outcome
  | all conditions => pollUntil ask .matched conditions
  | any conditions => pollUntil ask .unmatched conditions
  | not condition => Outcome.opposite <$> condition.poll ask
  | leaf => ask leaf

/-- The first outcome that is not `neutral`, or `neutral`. -/
def pollUntil (ask : Condition → m Outcome) (neutral : Outcome) : List Condition → m Outcome
  | [] => pure neutral
  | condition :: rest => do
    let outcome ← condition.poll ask
    if outcome = neutral then pollUntil ask neutral rest else return outcome

end

variable [LawfulMonad m] (ask : Condition → m Outcome) (neutral : Outcome)

/-- Negated parts have the opposite outcome. -/
theorem pollUntil_map_not (conditions : List Condition) :
    pollUntil ask neutral.opposite (conditions.map not) =
      Outcome.opposite <$> pollUntil ask neutral conditions := by
  induction conditions with
  | nil => simp [pollUntil]
  | cons condition rest ih =>
    simp only [List.map_cons, pollUntil, poll, ih, bind_map_left, map_bind]
    refine bind_congr fun outcome => ?_
    by_cases h : outcome = neutral
    · simp [h]
    · simp [h, Outcome.opposite_inj]

/-- The second part is evaluated behind the first, unless that decides. -/
theorem pollUntil_append (front back : List Condition) :
    pollUntil ask neutral (front ++ back) = do
      let outcome ← pollUntil ask neutral front
      if outcome = neutral then pollUntil ask neutral back else return outcome := by
  induction front with
  | nil => simp [pollUntil]
  | cons condition rest ih =>
    simp only [List.cons_append, pollUntil, ih, bind_assoc]
    refine bind_congr fun outcome => ?_
    by_cases h : outcome = neutral
    · simp [h]
    · simp [h]

/-- A part alone. -/
theorem pollUntil_singleton (condition : Condition) :
    pollUntil ask neutral [condition] = condition.poll ask := by
  have heta : ∀ outcome : Outcome,
      (if outcome = neutral then pure neutral else pure outcome : m Outcome) = pure outcome := by
    intro outcome
    split
    · next h => rw [h]
    · rfl
  simp [pollUntil, heta]

theorem pollUntil_pair (first second : Condition) :
    pollUntil ask neutral [first, second] = do
      let outcome ← first.poll ask
      if outcome = neutral then second.poll ask else return outcome := by
  rw [pollUntil, pollUntil_singleton]

theorem poll_and (first second : Condition) :
    (first.and second).poll ask = (all [first, second]).poll ask := by
  cases first with
  | all conditions =>
    show pollUntil ask .matched (conditions ++ [second]) =
      pollUntil ask .matched [all conditions, second]
    rw [pollUntil_append, pollUntil_pair, pollUntil_singleton, poll]
  | _ => rfl

theorem poll_or (first second : Condition) :
    (first.or second).poll ask = (any [first, second]).poll ask := by
  cases first with
  | any conditions =>
    show pollUntil ask .unmatched (conditions ++ [second]) =
      pollUntil ask .unmatched [any conditions, second]
    rw [pollUntil_append, pollUntil_pair, pollUntil_singleton, poll]
  | _ => rfl

end

/-! ### The leaves that are looked at -/

variable (store : Store) (lookup : Selector → BeanLookup)

/-- An evaluation that notes the leaves it looks at. -/
abbrev Noting := ExceptT Fault (StateM (List Condition))

/-- Looks at a leaf, and notes it. -/
def look (leaf : Condition) : Noting Outcome := do
  modify (· ++ [leaf])
  leaf.evaluate store lookup

/-- What an evaluation gives, and the leaves that are noted behind those of `log`. -/
def Noting.exec {α : Type} (noting : Noting α) (log : List Condition) :
    Except Fault α × List Condition :=
  noting.run.run log

/-- The outcome of a condition, or its fault, and the leaves that its evaluation looks at, in their
order. -/
def trace (condition : Condition) : Except Fault Outcome × List Condition :=
  Noting.exec (condition.poll (look store lookup)) []

theorem exec_look (leaf : Condition) (log : List Condition) :
    Noting.exec (look store lookup leaf) log = (leaf.evaluate store lookup, log ++ [leaf]) := rfl

theorem exec_bind {α β : Type} (first : Noting α) (next : α → Noting β) (log : List Condition) :
    Noting.exec (first >>= next) log =
      match Noting.exec first log with
      | (.ok a, later) => Noting.exec (next a) later
      | (.error fault, later) => (.error fault, later) := by
  show (ExceptT.run (first >>= next)).run log = _
  unfold Noting.exec
  rw [ExceptT.run_bind, StateT.run_bind]
  rcases first.run.run log with ⟨fault | a, later⟩ <;> rfl

variable {store lookup}

mutual

/-- Noting the leaves changes no outcome. -/
theorem exec_poll : ∀ (condition : Condition) (log : List Condition),
    (Noting.exec (condition.poll (look store lookup)) log).1 = condition.evaluate store lookup
  | onProperty .., _ | onMissingProperty _, _ | onBean _, _ | onMissingBean _, _
  | onSingleBean _, _ | onExpression _, _ | onFunction _, _ | always, _ => by
    rw [poll, exec_look]
    all_goals nofun
  | all conditions, log => by
    rw [poll, evaluate]
    exact exec_pollAll conditions log
  | any conditions, log => by
    rw [poll, evaluate]
    exact exec_pollAny conditions log
  | not condition, log => by
    rw [poll, evaluate, map_eq_pure_bind, exec_bind, ← exec_poll condition log]
    rcases Noting.exec (condition.poll (look store lookup)) log with ⟨fault | (_ | _ | ids), later⟩ <;>
      rfl

theorem exec_pollAll : ∀ (conditions : List Condition) (log : List Condition),
    (Noting.exec (pollUntil (look store lookup) .matched conditions) log).1 =
      evaluateAll store lookup conditions
  | [], _ => by
    rw [pollUntil, evaluateAll]
    rfl
  | condition :: rest, log => by
    rw [pollUntil, evaluateAll, exec_bind, ← exec_poll condition log]
    rcases Noting.exec (condition.poll (look store lookup)) log with ⟨fault | (_ | _ | ids), later⟩
    · rfl
    · exact exec_pollAll rest later
    · rfl
    · rfl

theorem exec_pollAny : ∀ (conditions : List Condition) (log : List Condition),
    (Noting.exec (pollUntil (look store lookup) .unmatched conditions) log).1 =
      evaluateAny store lookup conditions
  | [], _ => by
    rw [pollUntil, evaluateAny]
    rfl
  | condition :: rest, log => by
    rw [pollUntil, evaluateAny, exec_bind, ← exec_poll condition log]
    rcases Noting.exec (condition.poll (look store lookup)) log with ⟨fault | (_ | _ | ids), later⟩
    · rfl
    · rfl
    · exact exec_pollAny rest later
    · rfl

end

theorem trace_fst (condition : Condition) :
    (condition.trace store lookup).1 = condition.evaluate store lookup :=
  exec_poll condition []

/-! ### The laws -/

/-- Two conditions have the same outcome or fault, and their evaluations look at the same leaves in the
same order. -/
structure Interchangeable (store : Store) (lookup : Selector → BeanLookup)
    (condition other : Condition) : Prop where
  outcome : condition.evaluate store lookup = other.evaluate store lookup
  leaves : (condition.trace store lookup).2 = (other.trace store lookup).2

theorem interchangeable_of_poll {condition other : Condition}
    (h : condition.poll (look store lookup) = other.poll (look store lookup)) :
    Interchangeable store lookup condition other := by
  have ht : condition.trace store lookup = other.trace store lookup := by
    unfold trace
    rw [h]
  exact ⟨by rw [← trace_fst, ← trace_fst, ht], by rw [ht]⟩

theorem interchangeable_regrouped (neutral : Outcome) {group : List Condition → Condition}
    (hg : ∀ conditions, (group conditions).poll (look store lookup) =
      pollUntil (look store lookup) neutral conditions) (front back : List Condition) :
    Interchangeable store lookup (group (front ++ back)) (group [group front, group back]) := by
  refine interchangeable_of_poll ?_
  rw [hg, hg, pollUntil_pair, hg, hg, pollUntil_append]

/-- **The algebra of conditions**, whatever their leaves give. -/
theorem combinators_interchangeable (store : Store) (lookup : Selector → BeanLookup) :
    (∀ conditions, Interchangeable store lookup (not (all conditions)) (any (conditions.map not))) ∧
    (∀ conditions, Interchangeable store lookup (not (any conditions)) (all (conditions.map not))) ∧
    (∀ condition, Interchangeable store lookup (not (not condition)) condition) ∧
    (∀ front back, Interchangeable store lookup (all (front ++ back)) (all [all front, all back])) ∧
    (∀ front back, Interchangeable store lookup (any (front ++ back)) (any [any front, any back])) ∧
    (∀ first second, Interchangeable store lookup (first.and second) (all [first, second])) ∧
    (∀ first second, Interchangeable store lookup (first.or second) (any [first, second])) := by
  refine ⟨fun conditions => interchangeable_of_poll ?_, fun conditions => interchangeable_of_poll ?_,
    fun condition => interchangeable_of_poll ?_, ?_, ?_,
    fun first second => interchangeable_of_poll (poll_and _ first second),
    fun first second => interchangeable_of_poll (poll_or _ first second)⟩
  · simp only [poll]
    exact (pollUntil_map_not _ .matched conditions).symm
  · simp only [poll]
    exact (pollUntil_map_not _ .unmatched conditions).symm
  · simp [poll]
  · exact interchangeable_regrouped .matched fun _ => by rw [poll]
  · exact interchangeable_regrouped .unmatched fun _ => by rw [poll]

end Condition
end BeanContainer
