/-
# Values of predicates

What the parts of a predicate evaluate to.

Key definitions:
- `Predicate.Value`: the scalars, tuples and the value of an empty group.
- `Value.same`, equality of value and type.
- `Value.shown`, the text of a value among others, and `Value.plain`, its text on its own.
-/
import BeanContainer.Predicate.Scalar

namespace BeanContainer.Predicate

/-- What a part of a predicate evaluates to. -/
inductive Value where
  | text (s : String)
  | int (n : Int)
  | float (x : Float)
  | bool (b : Bool)
  | tuple (items : List Value)
  | empty
  deriving Repr, Inhabited

namespace Value

/-- The value that a scalar stands for. -/
def ofScalar : Scalar → Value
  | .int n => int n
  | .float x => float x
  | .text s => text s
  | .bool b => bool b

/-- The name of a value's type. -/
def typeName : Value → String
  | text _ => "string"
  | int _ => "int"
  | float _ => "float"
  | bool _ => "boolean"
  | tuple _ => "tuple"
  | empty => "empty"

mutual

/-- Whether two values have the same type and are equal; a value that is no number equals
nothing. -/
def same : Value → Value → Bool
  | text a, text b => a == b
  | int a, int b => a == b
  | float a, float b => a == b
  | bool a, bool b => a == b
  | tuple a, tuple b => sameItems a b
  | empty, empty => true
  | _, _ => false

/-- Whether two tuples have the same items. -/
def sameItems : List Value → List Value → Bool
  | [], [] => true
  | a :: as, b :: bs => a.same b && sameItems as bs
  | _, _ => false

end

mutual

/-- The text of a value, with quotes around texts. -/
def shown : Value → String
  | text s => "\"" ++ s ++ "\""
  | int n => n.repr
  | float x => text64 x
  | bool b => Text.ofBool b
  | tuple items => "(" ++ ", ".intercalate (shownItems items) ++ ")"
  | empty => "()"

/-- The texts of the items of a tuple. -/
def shownItems : List Value → List String
  | [] => []
  | item :: rest => item.shown :: shownItems rest

end

/-- The text of a value on its own: a text stands for itself, without quotes. -/
def plain : Value → String
  | text s => s
  | value => value.shown

end Value
end BeanContainer.Predicate
