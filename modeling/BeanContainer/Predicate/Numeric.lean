/-
# Numeric functions

The functions of numbers that a predicate may call, in tables by their names.

Key definitions:
- `Numeric.ofOne` and `Numeric.ofTwo`, functions of one and of two numbers.
- `Numeric.tests`, properties of a number.
-/
import BeanContainer.Number.Elementary

namespace BeanContainer.Predicate.Numeric

/-- Whether a number has a mantissa of full length. -/
def isNormal (x : Float) : Bool :=
  match (binary64.classify x.toBits.toNat).magnitude with
  | .finite mantissa _ => binary64.hidden ≤ mantissa
  | _ => false

/-- The functions of one number. -/
def ofOne : List (String × (Float → Float)) := [
  ("floor", Float.floor), ("ceil", Float.ceil), ("round", Float.round),
  ("math::ln", Float.log), ("math::log2", Float.log2), ("math::log10", Float.log10),
  ("math::exp", Float.exp), ("math::exp2", Float.exp2),
  ("math::sin", Float.sin), ("math::cos", Float.cos), ("math::tan", Float.tan),
  ("math::asin", Float.asin), ("math::acos", Float.acos), ("math::atan", Float.atan),
  ("math::sinh", Float.sinh), ("math::cosh", Float.cosh), ("math::tanh", Float.tanh),
  ("math::asinh", Float.asinh), ("math::acosh", Float.acosh), ("math::atanh", Real64.areaTangent),
  ("math::sqrt", Float.sqrt), ("math::cbrt", Real64.cubeRoot)]

/-- The functions of two numbers. -/
def ofTwo : List (String × (Float → Float → Float)) := [
  ("math::pow", Float.pow), ("math::log", fun x base => x.log / base.log),
  ("math::atan2", Float.atan2), ("math::hypot", Real64.hypotenuse)]

/-- The properties of a number. -/
def tests : List (String × (Float → Bool)) := [
  ("math::is_nan", Float.isNaN), ("math::is_finite", Float.isFinite),
  ("math::is_infinite", Float.isInf), ("math::is_normal", isNormal)]

end BeanContainer.Predicate.Numeric
