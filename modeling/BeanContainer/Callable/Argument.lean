/-
# Arguments

What can be given for a parameter: a fixed value, an expression, beans, or the result of another
callable.

Key definitions:
- `Arg`, and `Arg.asking`, the place an argument asks for.
- `Arg.on`, which puts a condition on an optional argument.
- `Callable.bind`, arguments put into their places.
- `Arg.described`, an argument with its form spelled out.
-/
import BeanContainer.Callable

namespace BeanContainer

/-- An argument. -/
inductive Arg where
  /-- A fixed value, with the full name of its type. -/
  | value (type : TypeName) (value : Value)
  /-- The zero value of the parameter. -/
  | nil
  /-- A property if there is a placeholder or a dollar sign in front, or else an autowire tag. -/
  | expression (text : String)
  /-- Beans. -/
  | bean (tag : AutowireTag)
  /-- An argument for the parameter at this index. -/
  | index (index : Nat) (argument : Arg)
  /-- The result of a callable, when the condition holds. -/
  | option (callable : Callable) (arguments : List Arg) (condition : Option Condition)
  /-- The result of a callable. -/
  | call (callable : Callable) (arguments : List Arg)
  deriving Inhabited

namespace Arg

/-- What stands for an argument that is not given: beans by the type of the parameter. -/
def byType : Arg := expression ""

/-- What stands for an argument, at the place that the argument asks for. -/
def asking {α : Type} (argument : Arg) (a : α) : Placing α :=
  match argument with
  | index i _ => .placed i a
  | option .. => .extra a
  | _ => .positional a

/-- The argument without the index that it asks for. -/
def content : Arg → Arg
  | index _ argument => argument
  | argument => argument

/-- The argument with the place it asks for. -/
def placing (argument : Arg) : Placing Arg :=
  argument.asking argument.content

/-- Puts one more condition on an optional argument; other arguments stay as they are. -/
def on (argument : Arg) (condition : Condition) : Arg :=
  match argument with
  | option callable arguments none => option callable arguments (some condition)
  | option callable arguments (some first) =>
    option callable arguments (some (first.and condition))
  | argument => argument

/-- Whether an expression stands for a property. -/
def isProperty (text : String) : Bool :=
  (Template.splitOpening text.toList).2.isSome || (Text.trimStart text).toList.head? = some '$'

/-- An optional condition with its form spelled out. -/
def describedCondition : Option Condition → String
  | none => "None"
  | some condition => "Some(" ++ condition.described ++ ")"

mutual

/-- The argument with its form spelled out. -/
def described : Arg → String
  | value .. => "Value(..)"
  | nil => "Nil"
  | expression text => "Expr(" ++ Text.quoted text ++ ")"
  | bean tag => "Bean(" ++ tag.described ++ ")"
  | index i argument => "Index(" ++ i.repr ++ ", " ++ argument.described ++ ")"
  | option callable arguments condition =>
    "Option(OptionArg \x7b callable: " ++ callable.described ++ ", args: "
      ++ Text.bracketed (describedList arguments) ++ ", condition: " ++ describedCondition condition
      ++ " \x7d)"
  | call callable arguments =>
    "Call(" ++ callable.described ++ ", " ++ Text.bracketed (describedList arguments) ++ ")"

/-- The arguments with their forms spelled out. -/
def describedList : List Arg → List String
  | [] => []
  | argument :: rest => argument.described :: describedList rest

end

end Arg

/-- The arguments in their places. -/
def Callable.bind (callable : Callable) (arguments : List Arg) :
    Except UsageFault (Placement Arg) :=
  callable.place .byType (arguments.map Arg.placing)

end BeanContainer
