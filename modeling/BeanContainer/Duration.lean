/-
# Durations

Spans of time in whole nanoseconds, and the texts such as `1h 30m` and `2.5s` that stand for
them: numbers, each with a unit.

Key definitions:
- `Duration`, seconds and the nanoseconds beyond them.
- `TimeUnit`, the units with their spellings.
- `DurationFault`, why a text is no duration, and its wording.
- `Duration.read`, the reader.
-/
import BeanContainer.Text.Blank
import BeanContainer.Text.Quoted

namespace BeanContainer

/-- A span of time. -/
structure Duration where
  seconds : Nat
  nanos : Nat
  deriving DecidableEq, Repr, Inhabited

/-- The units of time. -/
inductive TimeUnit where
  | nanosecond | microsecond | millisecond | second | minute
  | hour | day | week | month | year
  deriving DecidableEq, Repr, Inhabited

namespace TimeUnit

/-- The spellings of the units. -/
def spellings : List (TimeUnit × List String) := [
  (nanosecond, ["nanos", "nsec", "ns"]),
  (microsecond, ["usec", "us", "µs"]),
  (millisecond, ["millis", "msec", "ms"]),
  (second, ["seconds", "second", "secs", "sec", "s"]),
  (minute, ["minutes", "minute", "min", "mins", "m"]),
  (hour, ["hours", "hour", "hr", "hrs", "h"]),
  (day, ["days", "day", "d"]),
  (week, ["weeks", "week", "wk", "wks", "w"]),
  (month, ["months", "month", "M"]),
  (year, ["years", "year", "yr", "yrs", "y"])]

/-- The unit that a word spells. -/
def ofText? (word : String) : Option TimeUnit :=
  (spellings.find? fun entry => entry.2.contains word).map Prod.fst

/-- The seconds and nanoseconds of one unit. -/
def span : TimeUnit → Duration
  | nanosecond => ⟨0, 1⟩
  | microsecond => ⟨0, 1000⟩
  | millisecond => ⟨0, 1000000⟩
  | second => ⟨1, 0⟩
  | minute => ⟨60, 0⟩
  | hour => ⟨3600, 0⟩
  | day => ⟨86400, 0⟩
  | week => ⟨604800, 0⟩
  | month => ⟨2630016, 0⟩
  | year => ⟨31557600, 0⟩

/-- What a fraction of the unit is counted in: nanoseconds up to the minute, seconds from the
hour on; a nanosecond has no fraction. -/
def parts? : TimeUnit → Option Duration
  | nanosecond => none
  | microsecond => some ⟨0, 1000⟩
  | millisecond => some ⟨0, 1000000⟩
  | second => some ⟨0, 1000000000⟩
  | minute => some ⟨0, 60000000000⟩
  | unit => some unit.span

end TimeUnit

/-- Why a text is no duration; offsets count bytes. -/
inductive DurationFault where
  | empty
  | numberExpected (offset : Nat)
  | invalidCharacter (offset : Nat)
  | unitNeeded (number : Nat)
  | unknownUnit (word : String)
  | overflow
  /-- A second that is made up of nanoseconds alone has no room. -/
  | carry
  deriving DecidableEq, Repr, Inhabited

/-- The wording of a duration fault. -/
def DurationFault.message : DurationFault → String
  | empty => "value was empty"
  | numberExpected offset => "expected number at " ++ offset.repr
  | invalidCharacter offset => "invalid character at " ++ offset.repr
  | unitNeeded number =>
    "time unit needed, for example " ++ number.repr ++ "sec or " ++ number.repr ++ "ms"
  | unknownUnit word =>
    "unknown time unit " ++ Text.quoted word ++
      ", supported units: ns, us/µs, ms, sec, min, hours, days, weeks, months, years"
      ++ " (and few variations)"
  | overflow =>
    "number is too large or cannot be represented without a lack of precision"
      ++ " (values below 1ns are not supported)"
  | carry => "overflow in Duration::new"

namespace Duration

/-- All counts end below this bound. -/
def bound : Nat := 1 <<< 64

/-- The number of nanoseconds in a second. -/
def nanosPerSecond : Nat := 1000000000

/-- A count that is still in bounds. -/
def checked (n : Nat) : Except DurationFault Nat :=
  if n < bound then .ok n else .error .overflow

/-- The sum of a duration and a span of further seconds and nanoseconds. Nanoseconds that make up
just one second are carried last, when the other seconds have been found to be in bounds. -/
def add (d : Duration) (seconds nanos : Nat) : Except DurationFault Duration := do
  let nanos ← checked (d.nanos + nanos)
  if nanos = nanosPerSecond then
    let seconds ← checked (d.seconds + seconds)
    if seconds + 1 < bound then return ⟨seconds + 1, 0⟩ else throw .carry
  else
    let seconds ← checked (seconds + nanos / nanosPerSecond)
    return ⟨← checked (d.seconds + seconds), nanos % nanosPerSecond⟩

/-- A decimal fraction, `numerator / denominator`. -/
structure Fraction where
  numerator : Nat
  denominator : Nat
  deriving DecidableEq, Repr

/-- The quotient, which has to come out exact. -/
def exactDiv (num den : Nat) : Except DurationFault Nat :=
  if num % den = 0 then .ok (num / den) else .error .overflow

/-- The duration with `number` and a fraction of the unit added to it. -/
def addUnits (d : Duration) (number : Nat) (fraction : Option Fraction) (unit : TimeUnit) :
    Except DurationFault Duration := do
  let whole ← d.add (← checked (number * unit.span.seconds)) (← checked (number * unit.span.nanos))
  match fraction with
  | none => return whole
  | some ⟨numerator, denominator⟩ =>
    match unit.parts? with
    | none => .error .overflow
    | some part =>
      let seconds ← exactDiv (← checked (numerator * part.seconds)) denominator
      let nanos ← exactDiv (← checked (numerator * part.nanos)) denominator
      whole.add seconds nanos

/-- A letter of a unit. -/
def isUnitLetter (c : Char) : Bool :=
  ('a' ≤ c && c ≤ 'z') || ('A' ≤ c && c ≤ 'Z') || c == 'µ'

/-- A decimal digit. -/
def isDigit (c : Char) : Bool :=
  '0' ≤ c && c ≤ '9'

/-- What may stand inside a number: digits, and blanks that do not count. -/
def isNumberChar (c : Char) : Bool :=
  isDigit c || Text.isBlank c

/-- The length in bytes. -/
def byteLength (cs : List Char) : Nat :=
  cs.foldl (fun n c => n + c.utf8Size) 0

/-- The number that the digits among the characters spell. -/
def number (cs : List Char) : Except DurationFault Nat :=
  (cs.filter isDigit).foldlM (fun n c => checked (10 * n + (c.toNat - '0'.toNat))) 0

/-- The fraction that the digits among the characters spell. -/
def fraction (cs : List Char) : Except DurationFault Fraction := do
  let denominator ← checked (Nat.pow 10 (cs.filter isDigit).length)
  return ⟨← number cs, denominator⟩

/-- The byte offset of what is left of a text of `total` bytes. -/
def position (total : Nat) (rest : List Char) : Nat :=
  total - byteLength rest

/-- A number with its fraction and the word behind it. -/
structure Term where
  whole : Nat
  fraction : Option Fraction
  word : List Char

/-- The word that the text starts with; behind it may stand only what can stand between terms or
start the next one. -/
def readWord (total : Nat) (cs : List Char) : Except DurationFault (List Char) :=
  let rest := cs.dropWhile isUnitLetter
  if rest.head?.any (!isNumberChar ·) then .error (.invalidCharacter (position total rest))
  else .ok (cs.takeWhile isUnitLetter)

/-- The term that the text starts with. -/
def readTerm (total : Nat) (cs : List Char) : Except DurationFault Term := do
  let whole ← number (cs.takeWhile isNumberChar)
  match cs.dropWhile isNumberChar with
  | '.' :: behind =>
    let digits := behind.takeWhile isNumberChar
    let rest := behind.dropWhile isNumberChar
    let part ← fraction digits
    if part.denominator = 1 || rest.head?.any (!isUnitLetter ·) then
      .error (.invalidCharacter (position total (if digits.isEmpty then '.' :: behind else rest)))
    else return ⟨whole, some part, ← readWord total rest⟩
  | rest =>
    if rest.head?.any (!isUnitLetter ·) then .error (.invalidCharacter (position total rest))
    else return ⟨whole, none, ← readWord total rest⟩

/-- What stands behind the blank that a text may start with. -/
def afterBlank : List Char → List Char
  | [] => []
  | c :: cs => if Text.isBlank c then cs else c :: cs

/-- What stands behind the term that the text starts with, and behind the blank that ends it. -/
def afterTerm (cs : List Char) : List Char :=
  match cs.dropWhile isNumberChar with
  | '.' :: behind => afterBlank ((behind.dropWhile isNumberChar).dropWhile isUnitLetter)
  | rest => afterBlank (rest.dropWhile isUnitLetter)

theorem length_dropWhile_le (p : Char → Bool) (cs : List Char) :
    (cs.dropWhile p).length ≤ cs.length :=
  (List.dropWhile_suffix p).length_le

theorem length_afterBlank_le (cs : List Char) : (afterBlank cs).length ≤ cs.length := by
  fun_cases afterBlank cs <;> simp

theorem length_afterTerm_le (cs : List Char) : (afterTerm cs).length ≤ cs.length := by
  have h := length_dropWhile_le isNumberChar cs
  unfold afterTerm
  split
  · rename_i behind eq
    have := length_dropWhile_le isNumberChar behind
    have := length_dropWhile_le isUnitLetter (behind.dropWhile isNumberChar)
    have := length_afterBlank_le ((behind.dropWhile isNumberChar).dropWhile isUnitLetter)
    simp [eq] at h
    omega
  · exact Nat.le_trans (length_afterBlank_le _) (Nat.le_trans (length_dropWhile_le _ _) h)

/-- A text that starts with a digit gets shorter by its first term. -/
theorem length_afterTerm_lt {text : List Char} {c : Char} {cs : List Char}
    (starts : Text.dropBlanks text = c :: cs) (digit : isDigit c) :
    (afterTerm (c :: cs)).length < text.length := by
  have kept : afterTerm (c :: cs) = afterTerm cs := by simp [afterTerm, isNumberChar, digit]
  have shorter := length_dropWhile_le Text.isBlank text
  have behind := length_afterTerm_le cs
  simp only [Text.dropBlanks] at starts
  simp only [starts, List.length_cons] at shorter
  rw [kept]
  omega

/-- The duration with a term added to it. -/
def addTerm (d : Duration) (term : Term) : Except DurationFault Duration :=
  match TimeUnit.ofText? (String.ofList term.word) with
  | some unit => d.addUnits term.whole term.fraction unit
  | none =>
    if term.word.isEmpty then .error (.unitNeeded term.whole)
    else .error (.unknownUnit (String.ofList term.word))

/-- Adds the terms of what is left of a text of `total` bytes; `first` says that none was read
yet. Where a number is missing, the fault is at the place from which on it was looked for. -/
def readTerms (total : Nat) (d : Duration) (first : Bool) (text : List Char) :
    Except DurationFault Duration :=
  match starts : Text.dropBlanks text with
  | [] => if first then .error .empty else .ok d
  | c :: cs =>
    if digit : isDigit c then do
      have := length_afterTerm_lt starts digit
      let term ← readTerm total (c :: cs)
      readTerms total (← d.addTerm term) false (afterTerm (c :: cs))
    else .error (.numberExpected (position total text))
termination_by text.length

/-- The duration that a text stands for: `0`, or terms one after the other. -/
def read (text : String) : Except DurationFault Duration :=
  if text = "0" then .ok ⟨0, 0⟩
  else readTerms text.utf8ByteSize ⟨0, 0⟩ true text.toList

end Duration
end BeanContainer
