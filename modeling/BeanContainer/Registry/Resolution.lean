/-
# Resolution

Which beans take part. Conditions are evaluated in passes over the beans; a bean whose condition
waits on undecided beans is tried again in the next pass, for as long as a pass decides any bean.

Key definitions:
- `Registry.decideAt`, one bean, `Registry.pass`, all beans once, and `Registry.settle`, passes
  until one decides nothing.
- `Registry.waiting`, the beans that are left undecided, each with what it waits on.
- `Registry.resolve`, the whole decision with its checks.
-/
import BeanContainer.Registry

namespace BeanContainer.Registry

/-- The outcome of the condition of the bean at a position. -/
def outcomeAt (registry : Registry) (store : Store) (index : Nat) (bean : Bean) :
    Except Fault Outcome :=
  match bean.condition with
  | none => .ok .matched
  | some condition => condition.evaluate store (registry.lookup (some index))

/-- The status that an outcome leads to. -/
def statusOf : Outcome → Status
  | .matched => .resolved
  | .unmatched => .deleted
  | .pending _ => .default

/-- Evaluates the condition of the bean at a position, unless it is decided. -/
def decideAt (store : Store) (registry : Registry) (index : Nat) : Except Fault Registry :=
  match registry.beans[index]? with
  | none => .ok registry
  | some bean =>
    if bean.isUndecided then
      match registry.outcomeAt store index bean with
      | .ok outcome => .ok (registry.setStatus index (statusOf outcome))
      | .error cause => .error (.conditionFailed bean.id cause)
    else .ok registry

/-- Goes over all beans once; each sees the decisions before it. -/
def pass (store : Store) (registry : Registry) : Except Fault Registry :=
  registry.indices.foldlM (decideAt store) registry

/-- The number of undecided beans. -/
def undecided (registry : Registry) : Nat :=
  (registry.satisfying (·.isUndecided)).length

/-- Goes over the beans until a pass decides none. -/
def settle (store : Store) (registry : Registry) : Except Fault Registry := do
  let next ← pass store registry
  if next.undecided < registry.undecided then settle store next else return next
termination_by registry.undecided

/-- The ids that an outcome waits on. -/
def waitsOn : Except Fault Outcome → List String
  | .ok (.pending ids) => ids
  | _ => []

/-- The undecided beans, each with the ids of the beans that it waits on. -/
def waiting (registry : Registry) (store : Store) : List (String × List String) :=
  (registry.satisfying (·.isUndecided)).filterMap fun index =>
    registry.beans[index]?.map fun bean =>
      (bean.id, waitsOn (registry.outcomeAt store index bean))

/-- The first bean that can't be made, with the reason. -/
def refused? (registry : Registry) : Option (String × UsageFault) :=
  registry.beans.findSome? fun bean =>
    match bean.source with
    | .refused reason => some (bean.id, reason)
    | _ => none

/-- The first text of a list that is among those seen before or stands in the list before. -/
def repeated? (seen : List String) : List String → Option String
  | [] => none
  | id :: rest => if id ∈ seen then some id else repeated? (id :: seen) rest

/-- Decides which beans take part. The ids of those that do are distinct. -/
def resolve (store : Store) (registry : Registry) : Except Fault Registry :=
  match registry.refused? with
  | some (id, reason) => .error (.invalidBean id (.usage reason))
  | none => do
    let settled ← registry.settle store
    match settled.waiting store with
    | [] =>
      match repeated? [] (settled.ids (settled.satisfying (·.isAlive))) with
      | some id => .error (.usage (.duplicateId id))
      | none => return settled
    | waiting => .error (.lookup (.stuck waiting))

end BeanContainer.Registry
