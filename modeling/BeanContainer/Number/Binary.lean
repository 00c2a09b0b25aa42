/-
# Binary floating point

The finite numbers of a binary format as exact values `mantissa · 2 ^ exponent`, their bits, and
the nearest one to a quotient.

Key definitions:
- `BinaryFormat`, with `binary64` and `binary32`.
- `BinaryFormat.classify`, what a word of bits stands for, and `BinaryFormat.bits`, the word
  that stands for it.
- `roundDiv`, a quotient rounded to the nearest integer, a half to the even one.
- `BinaryFormat.nearest`, the value nearest to a quotient, a half to the even mantissa.
- `BinaryFormat.remainder`, what is left of one number when another one is taken from it as
  often as it goes.
- `Real64`, the same on numbers of 64 bits.
-/
namespace BeanContainer

/-- A binary format of `precision` bits whose exponents take `width` bits; `least` is the
exponent of its smallest positive number. -/
structure BinaryFormat where
  precision : Nat
  width : Nat
  least : Int
  deriving Repr

/-- Numbers of 64 bits. -/
def binary64 : BinaryFormat := ⟨53, 11, -1074⟩

/-- Numbers of 32 bits. -/
def binary32 : BinaryFormat := ⟨24, 8, -149⟩

/-- The size of a number. -/
inductive Magnitude where
  | finite (mantissa : Nat) (exponent : Int)
  | infinite
  | notANumber
  deriving DecidableEq, Repr, Inhabited

/-- What a word of bits stands for. -/
structure BinaryNumber where
  negative : Bool
  magnitude : Magnitude
  deriving DecidableEq, Repr, Inhabited

/-- The quotient rounded to the nearest integer; a half goes to the even one. -/
def roundDiv (num den : Nat) : Nat :=
  let floor := num / den
  let twice := 2 * (num % den)
  if twice < den then floor
  else if den < twice then floor + 1
  else floor + floor % 2

namespace BinaryFormat

/-- The number of mantissas without the leading bit. -/
def hidden (format : BinaryFormat) : Nat := 1 <<< (format.precision - 1)

/-- The biased exponent of the values that are not finite. -/
def special (format : BinaryFormat) : Nat := (1 <<< format.width) - 1

/-- What the word `bits` stands for. -/
def classify (format : BinaryFormat) (bits : Nat) : BinaryNumber :=
  let fraction := bits % format.hidden
  let biased := bits / format.hidden % (1 <<< format.width)
  let negative := ((bits / format.hidden) >>> format.width) % 2 == 1
  let magnitude :=
    if biased = format.special then
      if fraction = 0 then .infinite else .notANumber
    else if biased = 0 then .finite fraction format.least
    else .finite (fraction + format.hidden) (format.least + biased - 1)
  ⟨negative, magnitude⟩

/-- The word that stands for a number. A finite number is given with the mantissa of full
length, or with the least exponent; one that is too large for the format is infinite. -/
def bits (format : BinaryFormat) (number : BinaryNumber) : Nat :=
  let sign := if number.negative then format.hidden <<< format.width else 0
  sign + match number.magnitude with
    | .infinite => format.special * format.hidden
    | .notANumber => format.special * format.hidden + format.hidden / 2
    | .finite mantissa exponent =>
      if mantissa < format.hidden then mantissa
      else
        let biased := (exponent - format.least).toNat + 1
        if biased < format.special then biased * format.hidden + (mantissa - format.hidden)
        else format.special * format.hidden

/-- The number nearest to `num / den`, a half to the even mantissa. -/
def nearest (format : BinaryFormat) (num den : Nat) : Magnitude :=
  if num = 0 then .finite 0 format.least
  else
    let guess : Int := num.log2 - den.log2
    let top : Int :=
      if num <<< (-guess).toNat < den <<< guess.toNat then guess - 1 else guess
    let exponent := max format.least (top - (format.precision - 1))
    let mantissa := roundDiv (num <<< (-exponent).toNat) (den <<< exponent.toNat)
    if mantissa = 2 * format.hidden then .finite format.hidden (exponent + 1)
    else .finite mantissa exponent

/-- What is left of `a · 2 ^ p` when `b · 2 ^ q`, which is not zero, is taken from it as often as
it goes. The result is exact. -/
def remainder (format : BinaryFormat) (a : Nat) (p : Int) (b : Nat) (q : Int) : Magnitude :=
  let low := min p q
  let left := (a <<< (p - low).toNat) % (b <<< (q - low).toNat)
  format.nearest (left <<< low.toNat) (1 <<< (-low).toNat)

end BinaryFormat

namespace Real64

/-- The number of 64 bits with this sign and size. -/
def ofBinary (number : BinaryNumber) : Float :=
  Float.ofBits (UInt64.ofNat (binary64.bits number))

/-- The number of 64 bits nearest to an integer. -/
def ofInt (n : Int) : Float :=
  ofBinary ⟨n < 0, binary64.nearest n.natAbs 1⟩

/-- The remainder of a division that rounds toward zero; it has the sign of `x`. -/
def remainder (x y : Float) : Float :=
  let dividend := binary64.classify x.toBits.toNat
  match dividend.magnitude, (binary64.classify y.toBits.toNat).magnitude with
  | .finite a p, .finite b q =>
    if b = 0 then ofBinary ⟨false, .notANumber⟩
    else ofBinary ⟨dividend.negative, binary64.remainder a p b q⟩
  | .finite _ _, .infinite => x
  | _, _ => ofBinary ⟨false, .notANumber⟩

end Real64
end BeanContainer
