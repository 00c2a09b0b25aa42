/-
# Scalars

The values that predicates read: integers, floating-point numbers, texts and truth values.

Key definitions:
- `Scalar`, and `Scalar.shown`, its text.
- `Scalar.ofRaw`, the value that a stored text stands for.
-/
import BeanContainer.Number.Decimal
import BeanContainer.Number.Reading
import BeanContainer.Text.Blank
import BeanContainer.Text.Shown

namespace BeanContainer

/-- A value that a predicate reads. -/
inductive Scalar where
  | int (n : Int)
  | float (x : Float)
  | text (s : String)
  | bool (b : Bool)
  deriving Repr, Inhabited

namespace Scalar

/-- The text of a value. -/
def shown : Scalar → String
  | int n => n.repr
  | float x => text64 x
  | text s => s
  | bool b => Text.ofBool b

/-- The value that a stored text stands for: an integer, a number that is written with a digit,
a truth value, each with blanks around it or not, or else the text itself. -/
def ofRaw (raw : String) : Scalar :=
  let trimmed := Text.trim raw
  match readInt .i64 trimmed with
  | .ok n => int n
  | .error _ =>
    match readFloat64 trimmed, trimmed.toList.any isDecimalDigit with
    | .ok x, true => float x
    | _, _ =>
      match readBool trimmed with
      | .ok b => bool b
      | .error _ => text raw

end Scalar
end BeanContainer
