/-
# Elementary functions

Functions of numbers of 64 bits: the cube root, which is exact but for one rounding, and those
that are computed in floating point step by step, so that their last bits are settled by the order
of the steps.

Key definitions:
- `Real64.cubeRoot`, the nearest number to a cube root.
- `Real64.hypotenuse`, the length of a diagonal.
- `Real64.logOnePlus`, the natural logarithm of one more than a number.
- `Real64.areaTangent`, the inverse of the hyperbolic tangent.
-/
import BeanContainer.Number.Binary

namespace BeanContainer

/-- The cube of a number. -/
def cube (n : Nat) : Nat := n * n * n

/-- The greatest number whose cube is at most `n`, among `root` and those that come from it by
setting some of its lowest `room` bits, which are not set. -/
def cubeRootFrom (n : Nat) : (room : Nat) → (root : Nat) → Nat
  | 0, root => root
  | room + 1, root =>
    if cube (root + (1 <<< room)) ≤ n then cubeRootFrom n room (root + (1 <<< room))
    else cubeRootFrom n room root

/-- The integer part of a cube root. -/
def cubeRootFloor (n : Nat) : Nat :=
  cubeRootFrom n (n.log2 / 3 + 1) 0

namespace Real64

/-- The power of two with this exponent, which is in the range of normal numbers. -/
def powerOfTwo (exponent : Int) : Float :=
  ofBinary ⟨false, .finite binary64.hidden (exponent - (binary64.precision - 1))⟩

/-- What is no number. -/
def notANumber : Float := ofBinary ⟨false, .notANumber⟩

/-- The nearest number to a cube root. The root is taken with more bits than the result has, and a
bit behind them says whether it is exact. -/
def cubeRoot (x : Float) : Float :=
  let number := binary64.classify x.toBits.toNat
  match number.magnitude with
  | .finite mantissa exponent =>
    let widened := mantissa <<< ((exponent % 3).toNat + 3 * 60)
    let root := cubeRootFloor widened
    let bits := if cube root = widened then 2 * root else 2 * root + 1
    let exponent := exponent / 3 - 61
    ofBinary ⟨number.negative,
      binary64.nearest (bits <<< exponent.toNat) (1 <<< (-exponent).toNat)⟩
  | _ => x

/-- The diagonal of a rectangle with the sides `a ≥ b`: the root of the sum of the squares, less
what its own square is too large by, over twice the root. That excess is computed from the
difference to a side, so that little of it is lost. -/
def diagonal (a b : Float) : Float :=
  let root := (a * a + b * b).sqrt
  let excess :=
    if root ≤ 2 * b then
      let d := root - b
      a * (2 * d - a) + (d - 2 * (a - b)) * d
    else
      let d := root - a
      2 * d * (a - 2 * b) + ((4 * d - b) * b + d * d)
  root - excess / (2 * root)

/-- The length of the diagonal of a rectangle with these sides. Sides whose squares would be out
of range are scaled, and a side that is too short to count is just added. -/
def hypotenuse (x y : Float) : Float :=
  let a := if x.abs < y.abs then y.abs else x.abs
  let b := if x.abs < y.abs then x.abs else y.abs
  if x.isInf || y.isInf then 1 / 0
  else if b * powerOfTwo 54 ≤ a then a + b
  else
    let scale :=
      if powerOfTwo 511 < a then powerOfTwo (-600)
      else if b < powerOfTwo (-459) then powerOfTwo 600
      else 1
    diagonal (a * scale) (b * scale) / scale

/-- The natural logarithm of two: its leading bits, and the rest. -/
def logTwo : Float × Float := (6.93147180369123816490e-01, 1.90821492927058770002e-10)

/-- The number `1 + x` as `2 ^ exponent · (1 + part)`, but for a small `error`. -/
structure Reduced where
  exponent : Int
  part : Float
  error : Float

/-- The reduction of `1 + x`, with a part between about `√½ - 1` and `√2 - 1`. -/
def reduce (x : Float) : Reduced :=
  if -1228484 / 4194304 < x && x < 1737338 / 4194304 then ⟨0, x, 0⟩
  else
    let sum := if x < powerOfTwo 53 then 1 + x else x
    match (binary64.classify sum.toBits.toNat).magnitude with
    | .finite mantissa exponent =>
      let scaled := ofBinary ⟨false, .finite mantissa (1 - binary64.precision)⟩
      let exponent := exponent + (binary64.precision - 1)
      let error :=
        if x < powerOfTwo 53 then (if 0 < exponent then 1 - (sum - x) else x - (sum - 1)) / sum
        else 0
      if scaled < 1482910 / 1048576 then ⟨exponent, scaled - 1, error⟩
      else ⟨exponent + 1, scaled / 2 - 1, error⟩
    | _ => ⟨0, x, 0⟩

/-- What the logarithm of `1 + f` has beyond `f - f² / 2 + s · f² / 2`, over `s`, at the square of
`s = f / (2 + f)`: a polynomial that stands for a series. -/
def logSeries (z : Float) : Float :=
  let z2 := z * z
  let z4 := z2 * z2
  let z6 := z4 * z2
  z * 6.666666666666735130e-01
    + z2 * (3.999999999940941908e-01 + z * 2.857142874366239149e-01)
    + z4 * (2.222219843214978396e-01 + z * 1.818357216161805012e-01)
    + z6 * (1.531383769920937332e-01 + z * 1.479819860511658591e-01)

/-- The natural logarithm of `1 + x`, also where `1 + x` rounds to one. -/
def logOnePlus (x : Float) : Float :=
  if x.isNaN || x < -1 then notANumber
  else if x == -1 then -1 / 0
  else if x.isInf || x.abs < powerOfTwo (-54) then x
  else if x.abs < powerOfTwo (-29) then x - x * x * 0.5
  else
    let ⟨exponent, f, error⟩ := reduce x
    let half := 0.5 * f * f
    let s := f / (2 + f)
    let k := ofInt exponent
    k * logTwo.1 - ((half - (s * (half + logSeries (s * s)) + (k * logTwo.2 + error))) - f)

/-- The inverse of the hyperbolic tangent. -/
def areaTangent (x : Float) : Float :=
  0.5 * logOnePlus (2 * x / (1 - x))

end Real64
end BeanContainer
