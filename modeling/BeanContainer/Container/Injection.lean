/-
# Injection

How injection points and parameters are filled. Where the beans come from is left open: an
`Injector` gives those that a tag picks.

Key definitions:
- `Injector`, and `Injection.fill`, what a receiver gets from one.
- `Filler`, what an argument gives to a parameter of some type, and `Arg.filler`.
- `Callable.apply`, a call with injected parameters, and `Callable.callFor`, a call whose result
  has to be of a type.
-/
import BeanContainer.Container
import BeanContainer.Entries

namespace BeanContainer

/-- Gives the beans that a tag picks for a type. With `lazy` they may still be under
construction. -/
abbrev Injector := TypeName → AutowireTag → (lazy : Bool) → Run (List Handle)

/-- The decision of a condition in the container as it is. -/
def Condition.decideNow (condition : Condition) : Run Bool := do
  let container ← get
  Run.ofExcept (container.registry.holds container.store condition)

/-- A reference to a bean that has to be there. -/
def Handle.require (handle : Handle) : Run Value := do
  match (← get).component? handle.bean with
  | some _ => return .bean handle.bean
  | none => throw (.lookup (.notWired handle.id))

namespace Injection

/-- No bean is injectable as the type. -/
def noBean (type : TypeName) (tag : AutowireTag) : Fault :=
  .lookup (.noBean tag.shown type.text)

/-- The only bean that a tag picks, or none where the tag is optional. -/
def atMostOne (injector : Injector) (type : TypeName) (tag : AutowireTag) (lazy : Bool) :
    Run (Option Handle) := do
  match ← injector type tag lazy with
  | [] => if tag.optional then return none else throw (noBean type tag)
  | [handle] => return some handle
  | handles => throw (.lookup (.severalBeans tag.shown type.text (handles.map (·.id))))

/-- All beans that a tag picks, at least one where the tag is not optional. -/
def several (injector : Injector) (type : TypeName) (tag : AutowireTag) : Run (List Handle) := do
  let handles ← injector type tag false
  if handles.isEmpty && !tag.optional then throw (noBean type tag) else return handles

/-- The handles that a tag picks, with which beans are there now. -/
def survey (injector : Injector) (type : TypeName) (tag : AutowireTag) (lazy : Bool)
    (probe : Condition) : Run Survey := do
  let handles ← injector type tag lazy
  let container ← get
  let decision ← Run.answer probe.decideNow
  return ⟨handles.map fun handle => (handle, (container.component? handle.bean).isSome),
    decision, container.store.keys.length⟩

/-- What an injection point gets. -/
def fill (injector : Injector) (tag : AutowireTag) (injection : Injection) : Run Value :=
  let type := injection.type
  match injection.receiver with
  | .one => do
    match ← atMostOne injector type { tag with optional := false } false with
    | some handle => handle.require
    | none => throw (noBean type tag)
  | .optional => do
    match ← atMostOne injector type tag false with
    | some handle => handle.require
    | none => return .missing
  | .many => do return .list (← (← several injector type tag).mapM Handle.require)
  | .byId => do
    let handles ← several injector type tag
    let entries ← handles.mapM fun handle => do return (handle.id, ← handle.require)
    return .dict (Entries.ofPairs entries)
  | .lazy => do return .lazy (← atMostOne injector type tag true)
  | .context => return .context
  | .survey lazy probe => do return .survey (← survey injector type tag lazy probe)

end Injection

namespace ParamType

/-- What a parameter gets when beans are asked for. -/
def fromBeans (injector : Injector) (tag : AutowireTag) (type : ParamType) : Run Value :=
  match type with
  | injected ⟨.optional, bean⟩ =>
    Injection.fill injector { tag with optional := true } ⟨.optional, bean⟩
  | injected injection => injection.fill injector tag
  | type => throw (.usage (.notAutowirable type.name.text tag.shown))

/-- What a parameter gets when a property is asked for. -/
def fromProperty (expression : String) (type : ParamType) : Run Value :=
  match type with
  | bound _ schema | settings _ schema => do
    return .data (← Run.ofExcept ((← get).store.bindExpression expression schema))
  | injected injection => throw (.usage (.notBindable injection.name.text expression))

/-- What a parameter gets when nothing is given for it. -/
def fromNothing (type : ParamType) : Run Value :=
  match type.zero? with
  | some value => return value
  | none => throw (.usage (.noZero type.name.text))

end ParamType

/-- What an argument gives to a parameter of some type; none when its condition does not hold. -/
abbrev Filler := ParamType → Run (Option Value)

namespace Filler

/-- Gives beans by the type of the parameter. -/
def byType (injector : Injector) : Filler := fun type =>
  return some (← type.fromBeans injector .byType)

/-- The value of a parameter that is not variadic. -/
def single (filler : Filler) (type : ParamType) : Run Value := do
  match ← filler type with
  | some value => return value
  | none => type.fromNothing

/-- The values of a variadic parameter. -/
def several (type : ParamType) : List Filler → Run (List Value)
  | [] => return []
  | filler :: rest => do
    match ← filler type with
    | some value => return value :: (← several type rest)
    | none => several type rest

end Filler

namespace Callable

/-- The value of a parameter: of a variadic one the list of what the tail gives, and of another
one what its slot gives. -/
def valueOf (parameter : Parameter) (slot : Filler) (tail : List Filler) : Run Value :=
  if parameter.variadic then Value.list <$> Filler.several parameter.type tail
  else slot.single parameter.type

/-- The values of parameters, from the left to the right. -/
def values (byType : Filler) (tail : List Filler) :
    List Parameter → List Filler → Run (List Value)
  | [], _ => return []
  | parameter :: rest, slots => do
    let value ← valueOf parameter (slots.headD byType) tail
    return value :: (← values byType tail rest slots.tail)

/-- Calls `body` with the values of the parameters, as a stage in the life of the bean `owner`; the
search for the values is part of the stage. -/
def apply (callable : Callable) (injector : Injector) (owner : String) (stage : Stage)
    (placement : Placement Filler) (body : List Value → Script Value) : Run Value :=
  Run.guarded owner stage do
    let values ← values (.byType injector) placement.tail callable.params placement.slots
    Run.ofScript owner stage (body values)

/-- The function itself as user code. -/
def body (callable : Callable) (values : List Value) : Script Value :=
  match callable.run values with
  | .ok value => return value
  | .error upset => throw upset

/-- The result of a call, which has to be of the type `wanted`. -/
def callFor (callable : Callable) (injector : Injector) (wanted : TypeName)
    (arguments : List (Placing Filler)) : Run Value := do
  match callable.place (.byType injector) arguments with
  | .error reason => throw (.usage reason)
  | .ok placement =>
    let value ← callable.apply injector callable.name .call placement callable.body
    if callable.output = wanted then return value
    else throw (.usage (.wrongResult callable.name callable.output.text wanted.text))

end Callable

namespace Arg

/-- Whether an optional argument is given. -/
def isGiven : Option Condition → Run Bool
  | none => return true
  | some condition => condition.decideNow

mutual

/-- What the argument gives to a parameter. -/
def filler (injector : Injector) : Arg → Filler
  | value type fixed => fun wanted =>
    if type = wanted.name then return some fixed
    else throw (.usage (.wrongValue wanted.name.text))
  | nil => fun wanted => return some (← wanted.fromNothing)
  | expression text => fun wanted => do
    if isProperty text then return some (← wanted.fromProperty text)
    else return some (← wanted.fromBeans injector (← Run.ofExcept (AutowireTag.parse text)))
  | bean tag => fun wanted => return some (← wanted.fromBeans injector tag)
  | index _ argument => argument.filler injector
  | option callable arguments condition => fun wanted => do
    if ← isGiven condition then
      return some (← callable.callFor injector wanted.name (fillers injector arguments))
    else return none
  | call callable arguments => fun wanted =>
    return some (← callable.callFor injector wanted.name (fillers injector arguments))

/-- What the arguments give, each at the place it asks for. -/
def fillers (injector : Injector) : List Arg → List (Placing Filler)
  | [] => []
  | argument :: rest =>
    argument.asking (argument.filler injector) :: fillers injector rest

end

end Arg
end BeanContainer
