/-
# Decimal texts of numbers

The fewest decimal digits that read back as the same number, and the ways they are laid out.

Key definitions:
- `Decimal`, digits with a power of ten.
- `shortest`, the shortest decimal inside the interval of reals that round to a number, and of
  the shortest ones the nearest.
- `plain`, the layout without an exponent, and `Layout.render`, which adds the choices of an
  output format.
- `text64` and `text32`, the texts of numbers in messages and values.
-/
import BeanContainer.Number.Binary

namespace BeanContainer

/-- The value `digits · 10 ^ exponent`. -/
structure Decimal where
  digits : Nat
  exponent : Int
  deriving DecidableEq, Repr, Inhabited

namespace Decimal

/-- The number of decimal digits of `n`. -/
def digitCount (n : Nat) : Nat := (Nat.toDigits 10 n).length

/-- The power of ten at the first digit of `num / den`. -/
def leading (num den : Nat) : Int :=
  if den ≤ num then digitCount (num / den) - 1
  else -(digitCount ((den + num - 1) / num - 1) : Int)

/-- A number between its neighbours: it is `value / unit`, and the reals between `low / unit`
and `high / unit` round to it, the ends included when `closed`. -/
structure Interval where
  low : Nat
  value : Nat
  high : Nat
  unit : Nat
  closed : Bool
  deriving Repr

/-- The interval of reals that round to `mantissa · 2 ^ exponent`, which is not zero. -/
def interval (format : BinaryFormat) (mantissa : Nat) (exponent : Int) : Interval :=
  let scale := 1 <<< exponent.toNat
  let narrow : Bool := mantissa == format.hidden && format.least < exponent
  { low := (4 * mantissa - if narrow then 1 else 2) * scale
    value := 4 * mantissa * scale
    high := (4 * mantissa + 2) * scale
    unit := 4 <<< (-exponent).toNat
    closed := mantissa % 2 == 0 }

/-- Which neighbour a value in the middle between two decimals takes. -/
inductive Tie where
  | up
  | even
  deriving DecidableEq, Repr

/-- The decimal at `10 ^ power` nearest to the value, when it lies in the interval. -/
def candidate? (tie : Tie) (i : Interval) (power : Int) : Option Decimal :=
  let num := i.value * Nat.pow 10 (-power).toNat
  let den := i.unit * Nat.pow 10 power.toNat
  let inside (digits : Nat) : Bool :=
    let x := digits * den
    let low := i.low * Nat.pow 10 (-power).toNat
    let high := i.high * Nat.pow 10 (-power).toNat
    if i.closed then low ≤ x && x ≤ high else low < x && x < high
  let floor := num / den
  let twice := 2 * (num % den)
  let upper : Bool :=
    if twice = den then match tie with
      | .up => true
      | .even => floor % 2 == 1
    else den < twice
  match inside floor, inside (floor + 1) with
  | true, true => some ⟨if upper then floor + 1 else floor, power⟩
  | true, false => some ⟨floor, power⟩
  | false, true => some ⟨floor + 1, power⟩
  | false, false => none

/-- The first decimal found in the interval, from `count` digits upwards; `fuel` bounds the
number of tries. -/
def search (tie : Tie) (i : Interval) (top : Int) : (fuel count : Nat) → Option Decimal
  | 0, _ => none
  | fuel + 1, count =>
    (candidate? tie i (top - count + 1)).or (search tie i top fuel (count + 1))

/-- No number of the formats needs more digits. -/
def maxDigits : Nat := 17

/-- The decimal with as few digits as read back as `mantissa · 2 ^ exponent`, and of those the
nearest one. -/
def shortest (tie : Tie) (format : BinaryFormat) (mantissa : Nat) (exponent : Int) : Decimal :=
  let i := interval format mantissa exponent
  (search tie i (leading i.value i.unit) maxDigits 1).getD ⟨0, 0⟩

/-- The value with no zeros at the end of its digits. -/
def strip (d : Decimal) : Decimal :=
  let digits := Nat.toDigits 10 d.digits
  let kept := (digits.reverse.dropWhile (· == '0')).reverse
  ⟨kept.foldl (fun n c => 10 * n + (c.toNat - '0'.toNat)) 0,
    d.exponent + (digits.length - kept.length : Nat)⟩

/-- The digits as they are written, with the point `point` places behind the first one's
front. -/
def written (d : Decimal) : List Char × Int :=
  let digits := Nat.toDigits 10 d.digits
  (digits, digits.length + d.exponent)

/-- The decimal without an exponent: zeros fill up to the point, and a whole number has none. -/
def plain (d : Decimal) : String :=
  let (digits, point) := d.written
  String.ofList <|
    if point ≤ 0 then ['0', '.'] ++ List.replicate (-point).toNat '0' ++ digits
    else if digits.length ≤ point then digits ++ List.replicate (point - digits.length).toNat '0'
    else digits.take point.toNat ++ '.' :: digits.drop point.toNat

/-- The decimal with one digit before the point and an exponent that carries its sign. -/
def scientific (d : Decimal) : String :=
  let (digits, point) := d.written
  let fraction := digits.drop 1
  let power := point - 1
  String.ofList (digits.take 1 ++ (if fraction.isEmpty then [] else '.' :: fraction))
    ++ "e" ++ (if power < 0 then "-" else "+") ++ power.natAbs.repr

end Decimal

/-- How an output format writes numbers: which powers of ten at the first digit are written
without an exponent (all, if there are no bounds), and what follows a whole number. -/
structure Layout where
  tie : Decimal.Tie
  bounds : Option (Int × Int)
  whole : String

namespace Layout

/-- The text of a finite number without its sign. -/
def finite (layout : Layout) (format : BinaryFormat) (mantissa : Nat) (exponent : Int) : String :=
  if mantissa = 0 then "0" ++ layout.whole
  else
    let d := (Decimal.shortest layout.tie format mantissa exponent).strip
    let power := d.written.2 - 1
    let inBounds : Bool := match layout.bounds with
      | none => true
      | some (low, high) => low ≤ power && power < high
    if inBounds then d.plain ++ if 0 ≤ d.exponent then layout.whole else ""
    else d.scientific

/-- The text of a number. -/
def render (layout : Layout) (format : BinaryFormat) (number : BinaryNumber) : String :=
  let sign := if number.negative then "-" else ""
  match number.magnitude with
  | .notANumber => "NaN"
  | .infinite => sign ++ "inf"
  | .finite mantissa exponent => sign ++ layout.finite format mantissa exponent

end Layout

/-- Numbers in messages and values have no exponent, and whole ones no point. -/
def plainLayout : Layout := ⟨.up, none, ""⟩

/-- The text of a number of 64 bits. -/
def text64 (x : Float) : String :=
  plainLayout.render binary64 (binary64.classify x.toBits.toNat)

/-- The text of a number of 32 bits. -/
def text32 (x : Float32) : String :=
  plainLayout.render binary32 (binary32.classify x.toBits.toNat)

end BeanContainer
