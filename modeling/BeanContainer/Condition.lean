/-
# Conditions

What decides whether a bean takes part. A condition looks at the properties and at the other
beans; as long as beans that it looks at are not decided, it may be pending.

Key definitions:
- `Condition`, and `Condition.having`, `ifMissing`, `and`, `or`, which build on a condition.
- `Outcome`: matched, unmatched, or pending on beans.
- `BeanLookup`, the beans that a selector matches, split by whether they are decided.
- `Condition.evaluate`, the outcome, and `Condition.holds`, the decision.
-/
import BeanContainer.Binding
import BeanContainer.Selector

namespace BeanContainer

/-- What decides whether a bean takes part. -/
inductive Condition where
  /-- The property is there and, if a value is given, has it: the text itself, or one for which
  the predicate behind `expr:` is true. -/
  | onProperty (key : String) (having : Option String) (ifMissing : Bool)
  | onMissingProperty (key : String)
  /-- There is a bean. -/
  | onBean (selector : Selector)
  /-- There is no bean. -/
  | onMissingBean (selector : Selector)
  /-- There is exactly one bean. -/
  | onSingleBean (selector : Selector)
  /-- A predicate over the properties is true. -/
  | onExpression (predicate : String)
  /-- A function of the properties, which may fail with a reason. -/
  | onFunction (decide : Store → Except String Bool)
  | all (conditions : List Condition)
  | any (conditions : List Condition)
  | not (condition : Condition)
  | always
  deriving Inhabited

/-- The result of a condition while beans are being decided. -/
inductive Outcome where
  | matched
  | unmatched
  /-- It rests on these beans, which are not decided. -/
  | pending (ids : List String)
  deriving DecidableEq, Repr, Inhabited

/-- The outcome of a decision. -/
def Outcome.ofBool (b : Bool) : Outcome := if b then matched else unmatched

/-- The beans that a selector matches. -/
structure BeanLookup where
  resolved : List String
  pending : List String
  deriving DecidableEq, Repr, Inhabited

namespace Condition

/-- A property condition with a value that is wanted; other conditions stay as they are. -/
def having (condition : Condition) (value : String) : Condition :=
  match condition with
  | onProperty key _ ifMissing => onProperty key (some value) ifMissing
  | condition => condition

/-- A property condition that a missing property meets; other conditions stay as they are. -/
def orMissing (condition : Condition) : Condition :=
  match condition with
  | onProperty key having _ => onProperty key having true
  | condition => condition

/-- Both conditions; a conjunction takes the second one in. -/
def and (first second : Condition) : Condition :=
  match first with
  | all conditions => all (conditions ++ [second])
  | first => all [first, second]

/-- One of the conditions; a disjunction takes the second one in. -/
def or (first second : Condition) : Condition :=
  match first with
  | any conditions => any (conditions ++ [second])
  | first => any [first, second]

/-- What marks a wanted value as a predicate. -/
def predicateMark : List Char := "expr:".toList

/-- Whether a property has the wanted value. -/
def hasValue (store : Store) (key wanted : String) : Except Fault Bool := do
  let value ← match store.get? key with
    | some raw => store.resolve raw
    | none => .ok ""
  if predicateMark.isPrefixOf wanted.toList then
    store.evaluateWith (Scalar.ofRaw value)
      (String.ofList (wanted.toList.drop predicateMark.length))
  else return value == wanted

mutual

/-- The outcome of a condition. Its parts are evaluated from the left to the right, up to the
first that decides it or is pending. -/
def evaluate (store : Store) (lookup : Selector → BeanLookup) : Condition → Except Fault Outcome
  | onProperty key having ifMissing =>
    if !store.has key then .ok (.ofBool ifMissing)
    else match having with
      | none => .ok .matched
      | some wanted => (hasValue store key wanted).map Outcome.ofBool
  | onMissingProperty key => .ok (.ofBool (!store.has key))
  | onBean selector =>
    let found := lookup selector
    .ok <| if !found.resolved.isEmpty then .matched
      else if !found.pending.isEmpty then .pending found.pending
      else .unmatched
  | onMissingBean selector =>
    let found := lookup selector
    .ok <| if !found.resolved.isEmpty then .unmatched
      else if !found.pending.isEmpty then .pending found.pending
      else .matched
  | onSingleBean selector =>
    let found := lookup selector
    .ok <| if 1 < found.resolved.length then .unmatched
      else if !found.pending.isEmpty then .pending found.pending
      else .ofBool (found.resolved.length == 1)
  | onExpression predicate => (store.evaluate predicate).map Outcome.ofBool
  | onFunction decide =>
    match decide store with
    | .ok b => .ok (.ofBool b)
    | .error reason => .error (.lookup (.conditionFunction reason))
  | all conditions => evaluateAll store lookup conditions
  | any conditions => evaluateAny store lookup conditions
  | not condition => do
    match ← condition.evaluate store lookup with
    | .matched => return .unmatched
    | .unmatched => return .matched
    | .pending ids => return .pending ids
  | always => .ok .matched

/-- The outcome of conditions that have to match together. -/
def evaluateAll (store : Store) (lookup : Selector → BeanLookup) :
    List Condition → Except Fault Outcome
  | [] => .ok .matched
  | condition :: rest => do
    match ← condition.evaluate store lookup with
    | .matched => evaluateAll store lookup rest
    | decided => return decided

/-- The outcome of conditions of which one has to match. -/
def evaluateAny (store : Store) (lookup : Selector → BeanLookup) :
    List Condition → Except Fault Outcome
  | [] => .ok .unmatched
  | condition :: rest => do
    match ← condition.evaluate store lookup with
    | .unmatched => evaluateAny store lookup rest
    | decided => return decided

end

/-- The decision that an outcome is; a pending one is a fault. -/
def decision : Outcome → Except Fault Bool
  | .matched => .ok true
  | .unmatched => .ok false
  | .pending ids => .error (.lookup (.undecided ids))

/-- Whether the condition matches, once it can be decided. -/
def holds (store : Store) (lookup : Selector → BeanLookup) (condition : Condition) :
    Except Fault Bool := do
  decision (← condition.evaluate store lookup)

/-- An optional text with its form spelled out. -/
def describedOption : Option String → String
  | none => "None"
  | some text => "Some(" ++ Text.quoted text ++ ")"

mutual

/-- The condition with its form spelled out. -/
def described : Condition → String
  | onProperty key having ifMissing =>
    "OnProperty \x7b key: " ++ Text.quoted key ++ ", having_value: " ++ describedOption having
      ++ ", match_if_missing: " ++ Text.ofBool ifMissing ++ " \x7d"
  | onMissingProperty key => "OnMissingProperty(" ++ Text.quoted key ++ ")"
  | onBean selector => "OnBean(" ++ selector.described ++ ")"
  | onMissingBean selector => "OnMissingBean(" ++ selector.described ++ ")"
  | onSingleBean selector => "OnSingleBean(" ++ selector.described ++ ")"
  | onExpression predicate => "OnExpression(" ++ Text.quoted predicate ++ ")"
  | onFunction _ => "OnFunc(..)"
  | all conditions => "And(" ++ Text.bracketed (describedList conditions) ++ ")"
  | any conditions => "Or(" ++ Text.bracketed (describedList conditions) ++ ")"
  | not condition => "Not(" ++ condition.described ++ ")"
  | always => "Ok"

/-- The conditions with their forms spelled out. -/
def describedList : List Condition → List String
  | [] => []
  | condition :: rest => condition.described :: describedList rest

end

end Condition

/-- The lookup of a place without beans. -/
def noBeans (_ : Selector) : BeanLookup := ⟨[], []⟩

end BeanContainer
