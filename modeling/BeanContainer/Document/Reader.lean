/-
# Reading documents

The text of a document is cut into tokens, and the tokens are taken one by one into a stack of
open objects and arrays.

Key definitions:
- `DocumentToken`, and `DocumentToken.scan`.
- `Document.number?`, the number that a word stands for.
- `Assembly`, the stack with what may come next, and `Assembly.take?`, one step.
- `Document.read`, the document that a text stands for.
-/
import BeanContainer.Document.Basic

namespace BeanContainer

/-- The parts of the text of a document. -/
inductive DocumentToken where
  | mark (c : Char)
  | blank
  | word (cs : List Char)
  | quoted (text : String)
  deriving DecidableEq, Repr

namespace DocumentToken

/-- The characters that structure a document. -/
def isMark (c : Char) : Bool :=
  ['[', ']', '\x7b', '\x7d', ',', ':'].contains c

/-- The blanks of documents. -/
def isSpace (c : Char) : Bool :=
  [' ', '\n', '\t', '\r'].contains c

/-- Puts a character before the tokens; ordinary characters join into words. -/
def push (c : Char) (tokens : List DocumentToken) : List DocumentToken :=
  if isMark c then mark c :: tokens
  else if isSpace c then blank :: tokens
  else match tokens with
    | word cs :: rest => word (c :: cs) :: rest
    | _ => word [c] :: tokens

/-- What a letter behind a backslash stands for. -/
def escape? : Char → Option Char
  | '"' => some '"'
  | '\\' => some '\\'
  | '/' => some '/'
  | 'b' => some '\x08'
  | 'f' => some '\x0c'
  | 'n' => some '\n'
  | 'r' => some '\r'
  | 't' => some '\t'
  | _ => none

/-- The first half of a pair that stands for one character. -/
def isHigh (code : Nat) : Bool := 0xD800 ≤ code && code ≤ 0xDBFF

/-- The second half of a pair that stands for one character. -/
def isLow (code : Nat) : Bool := 0xDC00 ≤ code && code ≤ 0xDFFF

/-- The tokens of a text. `inside` holds the characters so far, in reverse, of a text in quotes
that is open; a text in quotes has no control characters, and halves of pairs stand together. -/
def scan : (inside : Option (List Char)) → List Char → Option (List DocumentToken)
  | none, [] => some []
  | none, '"' :: cs => scan (some []) cs
  | none, c :: cs => (scan none cs).map (push c)
  | some _, [] => none
  | some before, '"' :: cs => (scan none cs).map (quoted (String.ofList before.reverse) :: ·)
  | some before, '\\' :: 'u' :: a :: b :: c :: d :: cs =>
    match digits? 16 [a, b, c, d] with
    | none => none
    | some code =>
      if isLow code then none
      else if isHigh code then
        match cs with
        | '\\' :: 'u' :: e :: f :: g :: h :: cs =>
          match digits? 16 [e, f, g, h] with
          | none => none
          | some low =>
            if isLow low then
              scan (some (Char.ofNat (0x10000 + (code - 0xD800) * 0x400 + (low - 0xDC00))
                :: before)) cs
            else none
        | _ => none
      else scan (some (Char.ofNat code :: before)) cs
  | some before, '\\' :: c :: cs =>
    match escape? c with
    | some c => scan (some (c :: before)) cs
    | none => none
  | some before, c :: cs => if c < ' ' || c = '\\' then none else scan (some (c :: before)) cs

end DocumentToken

namespace Document

/-- The digits of a number cut to those that fit into 64 bits, with a power of ten for the rest;
`full` says that a digit did not fit. -/
structure Significand where
  value : Nat
  exponent : Int
  full : Bool
  deriving Repr

namespace Significand

/-- The bound of a significand. -/
def bound : Nat := 1 <<< 64

/-- Takes a digit in front of the point; once one did not fit, the further ones count as
zeros. -/
def takeWhole (s : Significand) (c : Char) : Significand :=
  let next := 10 * s.value + (c.toNat - '0'.toNat)
  if s.full || bound ≤ next then { s with exponent := s.exponent + 1, full := true }
  else { s with value := next }

/-- Takes a digit behind the point; once one did not fit, the further ones are dropped. -/
def takeFraction (s : Significand) (c : Char) : Significand :=
  let next := 10 * s.value + (c.toNat - '0'.toNat)
  if s.full || bound ≤ next then { s with full := true }
  else { s with value := next, exponent := s.exponent - 1 }

end Significand

/-- The greatest power of ten that floating point holds. -/
def greatestPower : Nat := 308

/-- The number `10 ^ n`. -/
def powerOfTen (n : Nat) : Float :=
  Real64.ofBinary ⟨false, binary64.nearest (Nat.pow 10 n) 1⟩

/-- The product of `x` and `10 ^ exponent` in floating point, taken in one multiplication or, for
negative exponents, in as many divisions as it takes; none when it is too large. -/
def scale (x : Float) (exponent : Int) : Option Float :=
  if exponent.natAbs ≤ greatestPower then
    if 0 ≤ exponent then
      let y := x * powerOfTen exponent.natAbs
      if y.isInf then none else some y
    else some (x / powerOfTen exponent.natAbs)
  else if x == 0 then some x
  else if 0 ≤ exponent then none
  else scale (x / powerOfTen greatestPower) (exponent + greatestPower)
termination_by (-exponent).toNat
decreasing_by simp only [greatestPower] at *; omega

/-- Exponents are read up to this bound. -/
def exponentBound : Nat := 1 <<< 31

/-- The number with this significand and an exponent written behind it. -/
def floatOf (negative : Bool) (s : Significand) (exponentNegative : Bool) (exponent : Nat) :
    Option Float :=
  let sign (x : Float) : Float := if negative then -x else x
  if exponentBound ≤ exponent then
    if s.value ≠ 0 && !exponentNegative then none else some (sign 0)
  else
    let total := if exponentNegative then s.exponent - exponent else s.exponent + exponent
    (scale (Real64.ofInt s.value) total).map sign

/-- The sign and the digits of an exponent. -/
def exponentText? (cs : List Char) : Option (Bool × Nat) :=
  let digits (cs : List Char) : Option Nat := if cs.isEmpty then none else digits? 10 cs
  match cs with
  | '+' :: cs => (digits cs).map (false, ·)
  | '-' :: cs => (digits cs).map (true, ·)
  | cs => (digits cs).map (false, ·)

/-- The number that a word stands for: an integer if it has neither point nor exponent and fits
into 64 bits, and floating point otherwise. -/
def number? (cs : List Char) : Option Document :=
  let (negative, cs) := match cs with
    | '-' :: cs => (true, cs)
    | cs => (false, cs)
  let whole := cs.takeWhile isDecimalDigit
  let rest := cs.dropWhile isDecimalDigit
  if whole.isEmpty || (whole.head? = some '0' && 1 < whole.length) then none
  else
    let s : Significand := whole.foldl Significand.takeWhole ⟨0, 0, false⟩
    let float (s : Significand) (exponent : Bool × Nat) : Option Document :=
      (floatOf negative s exponent.1 exponent.2).map Document.float
    let behindPoint (s : Significand) (rest : List Char) : Option Document :=
      match rest with
      | [] => float s (false, 0)
      | 'e' :: cs | 'E' :: cs => (exponentText? cs).bind (float s)
      | _ => none
    match rest with
    | [] =>
      if s.full then float s (false, 0)
      else if !negative then some (.int s.value)
      else if s.value = 0 || 1 <<< 63 < s.value then float s (false, 0)
      else some (.int (-s.value))
    | '.' :: cs =>
      let digits := cs.takeWhile isDecimalDigit
      if digits.isEmpty then none
      else behindPoint (digits.foldl Significand.takeFraction { s with full := false })
        (cs.dropWhile isDecimalDigit)
    | rest => behindPoint s rest

/-- The scalar that a word stands for. -/
def ofWord? (cs : List Char) : Option Document :=
  if cs = "null".toList then some .null
  else if cs = "true".toList then some (.bool true)
  else if cs = "false".toList then some (.bool false)
  else number? cs

end Document

/-- An object or array that is open, with what is in it so far; an object also with the name of
the member that is being read. -/
inductive OpenDocument where
  | array (items : List Document)
  | object (members : Members) (name : String)

/-- What may come next. -/
inductive Expected where
  | value
  | valueOrClose
  | name
  | nameOrClose
  | colon
  | separator
  /-- The document is whole. -/
  | nothing (document : Document)

/-- The documents that are open, the innermost first, and what may come next. -/
structure Assembly where
  stack : List OpenDocument
  expected : Expected

namespace Assembly

/-- As many objects and arrays may be open inside of each other. -/
def depthLimit : Nat := 127

/-- Puts a value where one is expected. -/
def put (value : Document) : List OpenDocument → Assembly
  | [] => ⟨[], .nothing value⟩
  | .array items :: rest => ⟨.array (items ++ [value]) :: rest, .separator⟩
  | .object members name :: rest =>
    ⟨.object (Entries.put name value members) name :: rest, .separator⟩

/-- Opens an object or array. -/
def open? (document : OpenDocument) (expected : Expected) (stack : List OpenDocument) :
    Option Assembly :=
  if stack.length < depthLimit then some ⟨document :: stack, expected⟩ else none

/-- Closes the innermost array or object with the mark that belongs to it. -/
def close? (mark : Char) : List OpenDocument → Option Assembly
  | .array items :: rest => if mark = ']' then some (put (.array items) rest) else none
  | .object members _ :: rest => if mark = '\x7d' then some (put (.object members) rest) else none
  | [] => none

/-- Takes the start of a value. -/
def takeValue? (stack : List OpenDocument) : DocumentToken → Option Assembly
  | .mark '[' => open? (.array []) .valueOrClose stack
  | .mark '\x7b' => open? (.object [] "") .nameOrClose stack
  | .quoted text => some (put (.text text) stack)
  | .word cs => (Document.ofWord? cs).map (put · stack)
  | _ => none

/-- Takes the name of a member. -/
def takeName? (stack : List OpenDocument) : DocumentToken → Option Assembly
  | .quoted name =>
    match stack with
    | .object members _ :: rest => some ⟨.object members name :: rest, .colon⟩
    | _ => none
  | _ => none

/-- Goes on behind a comma. -/
def separate? : List OpenDocument → Option Assembly
  | .array items :: rest => some ⟨.array items :: rest, .value⟩
  | .object members name :: rest => some ⟨.object members name :: rest, .name⟩
  | [] => none

/-- Takes one token. -/
def take? (assembly : Assembly) (token : DocumentToken) : Option Assembly :=
  match token, assembly.expected with
  | .blank, _ => some assembly
  | token, .value => takeValue? assembly.stack token
  | .mark ']', .valueOrClose => close? ']' assembly.stack
  | token, .valueOrClose => takeValue? assembly.stack token
  | token, .name => takeName? assembly.stack token
  | .mark '\x7d', .nameOrClose => close? '\x7d' assembly.stack
  | token, .nameOrClose => takeName? assembly.stack token
  | .mark ':', .colon => some { assembly with expected := .value }
  | .mark ',', .separator => separate? assembly.stack
  | .mark c, .separator => close? c assembly.stack
  | _, _ => none

end Assembly

/-- The document that a text stands for. -/
def Document.read (text : String) : Option Document := do
  let tokens ← DocumentToken.scan none text.toList
  let assembly ← tokens.foldlM Assembly.take? ⟨[], .value⟩
  match assembly.expected with
  | .nothing document => some document
  | _ => none

end BeanContainer
