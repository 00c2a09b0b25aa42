/-
# Schemas and bound data

What a property can be bound to, and what comes out.

Key definitions:
- `ScalarType`, `Schema`, the types: scalars, optional values, lists, maps from names, and
  records whose fields say where they are bound from.
- `Data`, the values of all types.
- `Schema.zero`, the value a type has when nothing is bound.
- `Data.scalar?`, what a validator sees of a value.
-/
import BeanContainer.Duration
import BeanContainer.Predicate.Scalar

namespace BeanContainer

/-- The types that are read from one text. -/
inductive ScalarType where
  | bool
  | int (width : IntWidth)
  | float32
  | float64
  | text
  | duration
  deriving DecidableEq, Repr, Inhabited

/-- A field of a record. One without a tag is not bound and has the zero value of its type. -/
structure Field where
  name : String
  tag : Option String
  validator : Option String
  deriving DecidableEq, Repr, Inhabited

/-- The types that a property can be bound to. -/
inductive Schema where
  | scalar (type : ScalarType)
  | option (content : Schema)
  | list (item : Schema)
  | dict (item : Schema)
  | record (fields : List (Field × Schema))
  deriving Repr, Inhabited

/-- The values that come out of a binding. -/
inductive Data where
  | bool (b : Bool)
  | int (n : Int)
  | float32 (x : Float32)
  | float64 (x : Float)
  | text (s : String)
  | duration (d : Duration)
  | absent
  | present (content : Data)
  | list (items : List Data)
  | dict (entries : List (String × Data))
  | record (fields : List (String × Data))
  deriving Repr, Inhabited

/-- The zero value of a scalar type. -/
def ScalarType.zero : ScalarType → Data
  | bool => .bool false
  | int _ => .int 0
  | float32 => .float32 0
  | float64 => .float64 0
  | text => .text ""
  | duration => .duration ⟨0, 0⟩

namespace Schema

mutual

/-- The value of a type when nothing is bound. -/
def zero : Schema → Data
  | scalar type => type.zero
  | option _ => .absent
  | list _ => .list []
  | dict _ => .dict []
  | record fields => .record (zeroFields fields)

/-- The fields of a record when nothing is bound. -/
def zeroFields : List (Field × Schema) → List (String × Data)
  | [] => []
  | (field, schema) :: rest => (field.name, schema.zero) :: zeroFields rest

end

end Schema

namespace Data

/-- An integer as validators see it; one beyond 64 bits with a sign is in floating point. -/
def scalarOfInt (n : Int) : Scalar :=
  if n ≤ IntWidth.i64.greatest then .int n else .float (Real64.ofInt n)

/-- A duration in seconds. -/
def scalarOfDuration (d : Duration) : Scalar :=
  if d.nanos = 0 then scalarOfInt d.seconds
  else .float (Real64.ofInt d.seconds + Real64.ofInt d.nanos / Real64.ofInt Duration.nanosPerSecond)

/-- What a validator sees of a value: scalars, and the contents of optional values. -/
def scalar? : Data → Option Scalar
  | bool b => some (.bool b)
  | int n => some (scalarOfInt n)
  | float32 x => some (.float x.toFloat)
  | float64 x => some (.float x)
  | text s => some (.text s)
  | duration d => some (scalarOfDuration d)
  | present content => content.scalar?
  | absent | list _ | dict _ | record _ => none

end Data
end BeanContainer
