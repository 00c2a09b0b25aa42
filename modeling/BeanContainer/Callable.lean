/-
# Callables

User functions with typed parameters, and the placement of arguments: arguments go to parameters
in order, or each to a parameter that it names, and what is left over goes to a last parameter
that takes any number of them.

Key definitions:
- `Upset`, how user code stops before its end.
- `Parameter` and `Callable`.
- `Placing`, an argument with the place it asks for, and `Placement`, arguments in their places.
- `Callable.place`, which puts every argument into exactly one place or refuses.
-/
import BeanContainer.Injection.Value

namespace BeanContainer

/-- How user code stops before its end. -/
inductive Upset where
  | failed (reason : String)
  | panicked (reason : String)
  deriving DecidableEq, Repr, Inhabited

/-- The reason that is reported. -/
def Upset.reason : Upset → String
  | failed reason => reason
  | panicked reason => panicReport reason

/-- A parameter; a variadic one takes any number of arguments. -/
structure Parameter where
  type : ParamType
  variadic : Bool
  deriving Inhabited

/-- The full name of the parameter's type. -/
def Parameter.name (parameter : Parameter) : TypeName :=
  if parameter.variadic then parameter.type.name.variadic else parameter.type.name

/-- A parameter with its form spelled out. -/
def Parameter.described (parameter : Parameter) : String :=
  "ParamInfo \x7b type_name: " ++ Text.quoted parameter.name.text ++ ", variadic: "
    ++ Text.ofBool parameter.variadic ++ " \x7d"

/-- A user function. It takes one value for each parameter, a list for a variadic one. -/
structure Callable where
  name : String
  params : List Parameter
  /-- The full name of the type of its results. -/
  output : TypeName
  run : List Value → Except Upset Value
  deriving Inhabited

/-- A callable with its form spelled out. -/
def Callable.described (callable : Callable) : String :=
  "Callable \x7b name: " ++ Text.quoted callable.name ++ ", params: "
    ++ Text.bracketed (callable.params.map Parameter.described) ++ ", output: "
    ++ callable.output.text ++ " \x7d"

/-- An argument with the place it asks for. -/
inductive Placing (α : Type) where
  /-- The next parameter. -/
  | positional (argument : α)
  /-- The parameter at this index. -/
  | placed (index : Nat) (argument : α)
  /-- The variadic parameter. -/
  | extra (argument : α)
  deriving Inhabited

/-- Arguments in their places: one for each parameter that is not variadic, and those for the
variadic one. -/
structure Placement (α : Type) where
  slots : List α
  tail : List α
  deriving Inhabited

/-- The arguments of a placement, each replaced by what it stands for. -/
def Placement.map {α β : Type} (f : α → β) (placement : Placement α) : Placement β :=
  ⟨placement.slots.map f, placement.tail.map f⟩

/-- Whether arguments name their places: the first that is not extra decides. -/
def Placing.named {α : Type} : List (Placing α) → Bool
  | [] => false
  | .extra _ :: rest => named rest
  | .placed .. :: _ => true
  | .positional _ :: _ => false

/-- A placement that is being made. -/
structure Draft (α : Type) where
  slots : List (Option α)
  /-- The number of positional arguments so far. -/
  next : Nat
  tail : List α

namespace Callable

/-- Whether the last parameter is variadic. -/
def isVariadic (callable : Callable) : Bool :=
  match callable.params.getLast? with
  | some parameter => parameter.variadic
  | none => false

/-- The number of parameters that are not variadic. -/
def fixed (callable : Callable) : Nat :=
  callable.params.length - if callable.isVariadic then 1 else 0

/-- The first variadic parameter that is not the last one. -/
def misplaced? (callable : Callable) : Option Parameter :=
  callable.params.dropLast.find? (·.variadic)

/-- Puts one argument into its place. -/
def placeOne {α : Type} (callable : Callable) (named : Bool) (draft : Draft α) :
    Placing α → Except UsageFault (Draft α)
  | .extra argument =>
    if callable.isVariadic then .ok { draft with tail := draft.tail ++ [argument] }
    else .error (.optionWithoutVariadic callable.name)
  | .placed index argument =>
    if !named then .error (.mixedArguments callable.name)
    else match draft.slots[index]? with
      | none => .error (.indexOutOfRange callable.name index)
      | some (some _) => .error (.indexTaken callable.name index)
      | some none => .ok { draft with slots := draft.slots.set index (some argument) }
  | .positional argument =>
    if named then .error (.mixedArguments callable.name)
    else if draft.next < callable.fixed then
      .ok { draft with
        slots := draft.slots.set draft.next (some argument)
        next := draft.next + 1 }
    else if callable.isVariadic then .ok { draft with tail := draft.tail ++ [argument] }
    else .error (.tooManyArguments callable.name callable.fixed)

/-- Puts arguments into their places; a parameter without an argument gets `byType`. -/
def place {α : Type} (callable : Callable) (byType : α) (arguments : List (Placing α)) :
    Except UsageFault (Placement α) :=
  match callable.misplaced? with
  | some parameter => .error (.variadicNotLast callable.name parameter.name.text)
  | none => do
    let start : Draft α := ⟨List.replicate callable.fixed none, 0, []⟩
    let draft ← arguments.foldlM (callable.placeOne (Placing.named arguments)) start
    return ⟨draft.slots.map (·.getD byType), draft.tail⟩

end Callable
end BeanContainer
