/-
# Reading numbers

Texts that stand for integers of a given width, for floating-point numbers and for truth
values, with the reason when they do not.

Key definitions:
- `IntWidth`, the integer types with their bounds.
- `NumberFault`, why a text is no number, and its wording.
- `readInt`, `readFloat64`, `readFloat32` and `readBool`.
-/
import BeanContainer.Number.Binary

namespace BeanContainer

/-- The integer types; `isize` and `usize` have 64 bits. -/
inductive IntWidth where
  | i8 | i16 | i32 | i64 | isize
  | u8 | u16 | u32 | u64 | usize
  deriving DecidableEq, Repr, Inhabited

namespace IntWidth

/-- The name of the type. -/
def name : IntWidth → String
  | i8 => "i8" | i16 => "i16" | i32 => "i32" | i64 => "i64" | isize => "isize"
  | u8 => "u8" | u16 => "u16" | u32 => "u32" | u64 => "u64" | usize => "usize"

/-- The number of bits. -/
def bits : IntWidth → Nat
  | i8 | u8 => 8
  | i16 | u16 => 16
  | i32 | u32 => 32
  | i64 | u64 | isize | usize => 64

/-- Whether the type has negative numbers. -/
def signed : IntWidth → Bool
  | i8 | i16 | i32 | i64 | isize => true
  | u8 | u16 | u32 | u64 | usize => false

/-- The least number of the type. -/
def least (width : IntWidth) : Int :=
  if width.signed then -(1 <<< (width.bits - 1) : Nat) else 0

/-- The greatest number of the type. -/
def greatest (width : IntWidth) : Int :=
  (1 <<< (if width.signed then width.bits - 1 else width.bits) : Nat) - 1

end IntWidth

/-- Why a text does not read as a value. -/
inductive NumberFault where
  | noInteger
  | invalidDigit
  | tooLarge
  | tooSmall
  | noFloat
  | invalidFloat
  | notBool
  deriving DecidableEq, Repr, Inhabited

/-- The wording of a reading fault. -/
def NumberFault.message : NumberFault → String
  | noInteger => "cannot parse integer from empty string"
  | invalidDigit => "invalid digit found in string"
  | tooLarge => "number too large to fit in target type"
  | tooSmall => "number too small to fit in target type"
  | noFloat => "cannot parse float from empty string"
  | invalidFloat => "invalid float literal"
  | notBool => "provided string was not \x60true\x60 or \x60false\x60"

/-- A digit of a base up to 16. -/
def digitValue? (base : Nat) (c : Char) : Option Nat :=
  let value :=
    if '0' ≤ c && c ≤ '9' then c.toNat - '0'.toNat
    else if 'a' ≤ c && c ≤ 'z' then c.toNat - 'a'.toNat + 10
    else if 'A' ≤ c && c ≤ 'Z' then c.toNat - 'A'.toNat + 10
    else base
  if value < base then some value else none

/-- The number that the digits spell, when all are digits of the base. -/
def digits? (base : Nat) (cs : List Char) : Option Nat :=
  cs.foldlM (fun n c => (digitValue? base c).map (base * n + ·)) 0

/-- What a row of digits stands for when it is read from the front and the first thing that is
wrong counts: a digit that takes the number out of bounds, or a character that is no digit. -/
def readDigits (base : Nat) (negative : Bool) (least greatest : Int) :
    Int → List Char → Except NumberFault Int
  | n, [] => .ok n
  | n, c :: cs =>
    match digitValue? base c with
    | none => .error .invalidDigit
    | some digit =>
      let next := if negative then base * n - digit else base * n + digit
      if next < least then .error .tooSmall
      else if greatest < next then .error .tooLarge
      else readDigits base negative least greatest next cs

/-- The integer that a text stands for: an optional sign, `-` for types with negative numbers
only, and decimal digits. -/
def readInt (width : IntWidth) (s : String) : Except NumberFault Int :=
  let digits (negative : Bool) (cs : List Char) :=
    if cs.isEmpty then .error .invalidDigit
    else readDigits 10 negative width.least width.greatest 0 cs
  match s.toList with
  | [] => .error .noInteger
  | '+' :: cs => digits false cs
  | '-' :: cs => if width.signed then digits true cs else .error .invalidDigit
  | cs => digits false cs

/-- A decimal as it is written: digits before and after the point, and the exponent. -/
structure FloatText where
  whole : List Char
  fraction : List Char
  exponent : Int

/-- A decimal digit. -/
def isDecimalDigit (c : Char) : Bool :=
  '0' ≤ c && c ≤ '9'

/-- The exponent that follows the digits, if there is one. -/
def exponent? : List Char → Option Int
  | [] => some 0
  | e :: cs =>
    if e == 'e' || e == 'E' then
      let digits (cs : List Char) : Option Nat := if cs.isEmpty then none else digits? 10 cs
      match cs with
      | '+' :: cs => (digits cs).map Int.ofNat
      | '-' :: cs => (digits cs).map fun n => -Int.ofNat n
      | cs => (digits cs).map Int.ofNat
    else none

/-- Digits with an optional point among or around them and an optional exponent. -/
def floatText? (cs : List Char) : Option FloatText :=
  let whole := cs.takeWhile isDecimalDigit
  let rest := cs.dropWhile isDecimalDigit
  let (fraction, rest) := match rest with
    | '.' :: rest => (rest.takeWhile isDecimalDigit, rest.dropWhile isDecimalDigit)
    | _ => ([], rest)
  if whole.isEmpty && fraction.isEmpty then none
  else (exponent? rest).map fun exponent => ⟨whole, fraction, exponent⟩

/-- Beyond this power of ten at the first digit every format has only zero and infinity. -/
def powerBound : Int := 400

/-- The size of a written decimal, rounded to the format. -/
def FloatText.magnitude (text : FloatText) (format : BinaryFormat) : Magnitude :=
  let digits := (text.whole ++ text.fraction).dropWhile (· == '0')
  let exponent := text.exponent - text.fraction.length
  let power := digits.length + exponent
  if digits.isEmpty || power < -powerBound then .finite 0 format.least
  else if powerBound < power then .infinite
  else
    let n := (digits? 10 digits).getD 0
    format.nearest (n * Nat.pow 10 exponent.toNat) (Nat.pow 10 (-exponent).toNat)

/-- The number that a text stands for: an optional sign with a decimal, an infinity or the
value that is no number, the last two in any case of letters. -/
def readBinary (format : BinaryFormat) (s : String) : Except NumberFault BinaryNumber :=
  let (negative, cs) := match s.toList with
    | '-' :: cs => (true, cs)
    | '+' :: cs => (false, cs)
    | cs => (false, cs)
  if s.isEmpty then .error .noFloat
  else match floatText? cs with
    | some text => .ok ⟨negative, text.magnitude format⟩
    | none =>
      let word := cs.map Char.toLower
      if word = "inf".toList || word = "infinity".toList then .ok ⟨negative, .infinite⟩
      else if word = "nan".toList then .ok ⟨negative, .notANumber⟩
      else .error .invalidFloat

/-- A number of 64 bits. -/
def readFloat64 (s : String) : Except NumberFault Float :=
  (readBinary binary64 s).map Real64.ofBinary

/-- A number of 32 bits. -/
def readFloat32 (s : String) : Except NumberFault Float32 :=
  (readBinary binary32 s).map fun x => Float32.ofBits (UInt32.ofNat (binary32.bits x))

/-- A truth value: exactly `true` or `false`. -/
def readBool (s : String) : Except NumberFault Bool :=
  if s = "true" then .ok true
  else if s = "false" then .ok false
  else .error .notBool

end BeanContainer
