/-
# Tokens of predicates

A predicate is read in two steps: its characters become glyphs, in which texts in quotes are
whole and comments are gone, and the glyphs become tokens.

Key definitions:
- `Glyph` and `Glyph.scan`.
- `Token`, and `Token.ofWord?`, what a run of ordinary characters stands for.
- `Token.read`, the tokens of a source text.
-/
import BeanContainer.Predicate.Value

namespace BeanContainer.Predicate

/-- The smallest parts of a predicate. -/
inductive Glyph where
  | word (cs : List Char)
  | blank
  | symbol (c : Char)
  | quoted (text : String)
  deriving DecidableEq, Repr

/-- What the characters being scanned belong to. -/
inductive Mode where
  | plain
  | lineComment
  | blockComment
  /-- A text in quotes, whose characters so far stand in reverse. -/
  | quoted (before : List Char)

namespace Glyph

/-- The characters that are symbols or parts of symbols. -/
def symbols : List Char :=
  ['+', '-', '*', '/', '%', '^', '(', ')', ',', ';', '=', '!', '>', '<', '&', '|']

/-- Puts a character before the glyphs; ordinary characters join into words. -/
def push (c : Char) (glyphs : List Glyph) : List Glyph :=
  if symbols.contains c then symbol c :: glyphs
  else if Text.isBlank c then blank :: glyphs
  else match glyphs with
    | word cs :: rest => word (c :: cs) :: rest
    | _ => word [c] :: glyphs

/-- The glyphs of a text. Inside quotes a backslash stands before a quote or a backslash only;
quotes and block comments have to be closed. -/
def scan : Mode → List Char → Option (List Glyph)
  | .plain, [] => some []
  | .plain, '"' :: cs => scan (.quoted []) cs
  | .plain, '/' :: '/' :: cs => scan .lineComment cs
  | .plain, '/' :: '*' :: cs => scan .blockComment cs
  | .plain, c :: cs => (scan .plain cs).map (push c)
  | .lineComment, [] => some []
  | .lineComment, c :: cs => if c = '\n' then scan .plain cs else scan .lineComment cs
  | .blockComment, [] => none
  | .blockComment, '*' :: '/' :: cs => scan .plain cs
  | .blockComment, _ :: cs => scan .blockComment cs
  | .quoted _, [] => none
  | .quoted before, '"' :: cs =>
    (scan .plain cs).map (quoted (String.ofList before.reverse) :: ·)
  | .quoted before, '\\' :: '"' :: cs => scan (.quoted ('"' :: before)) cs
  | .quoted before, '\\' :: '\\' :: cs => scan (.quoted ('\\' :: before)) cs
  | .quoted _, '\\' :: _ => none
  | .quoted before, c :: cs => scan (.quoted (c :: before)) cs

end Glyph

/-- The operators that stand between their operands. -/
inductive BinaryOperator where
  | add | sub | mul | div | mod | pow
  | eq | ne | gt | lt | ge | le
  | and | or
  deriving DecidableEq, Repr

/-- The words and symbols of a predicate. -/
inductive Token where
  | binary (operator : BinaryOperator)
  | minus
  | not
  | opening
  | closing
  | comma
  | semicolon
  /-- An assignment; `plain` for the one without an operator. -/
  | assign (plain : Bool)
  | identifier (name : String)
  | value (value : Value)
  deriving Repr

namespace Token

/-- An integer in decimal, or behind `0x`, `0o` or `0b` in its base. -/
def integer? (cs : List Char) : Option Int :=
  let inBase (base : Nat) (cs : List Char) : Option Int :=
    if cs.isEmpty then none
    else (readDigits base false IntWidth.i64.least IntWidth.i64.greatest 0 cs).toOption
  match cs with
  | '0' :: 'x' :: cs => inBase 16 cs
  | '0' :: 'o' :: cs => inBase 8 cs
  | '0' :: 'b' :: cs => inBase 2 cs
  | cs => inBase 10 cs

/-- What a word stands for on its own, when it is no identifier. -/
def ofWord? (cs : List Char) : Option Value :=
  match integer? cs with
  | some n => some (.int n)
  | none =>
    match readFloat64 (String.ofList cs) with
    | .ok x => some (.float x)
    | .error _ => (readBool (String.ofList cs)).toOption.map Value.bool

/-- The number that a word, a sign and another word spell together. -/
def float? (word : List Char) (sign : Char) (exponent : List Char) : Option Float :=
  if sign = '-' || sign = '+' then
    (readFloat64 (String.ofList (word ++ sign :: exponent))).toOption
  else none

/-- The operator that a symbol stands for on its own. -/
def operator? : Char → Option Token
  | '+' => some (binary .add)
  | '-' => some minus
  | '*' => some (binary .mul)
  | '/' => some (binary .div)
  | '%' => some (binary .mod)
  | '^' => some (binary .pow)
  | '=' => some (assign true)
  | '!' => some not
  | '>' => some (binary .gt)
  | '<' => some (binary .lt)
  | '(' => some opening
  | ')' => some closing
  | ',' => some comma
  | ';' => some semicolon
  | _ => none

/-- The token that a symbol makes with an equals sign behind it. -/
def withEquals? : Char → Option Token
  | '=' => some (binary .eq)
  | '!' => some (binary .ne)
  | '>' => some (binary .ge)
  | '<' => some (binary .le)
  | '+' | '-' | '*' | '/' | '%' | '^' => some (assign false)
  | _ => none

/-- The operator that a symbol makes when it is doubled. -/
def doubled? : Char → Option Token
  | '&' => some (binary .and)
  | '|' => some (binary .or)
  | _ => none

/-- The tokens that glyphs make; none when a symbol makes no token. -/
def ofGlyphs : List Glyph → Option (List Token)
  | [] => some []
  | .blank :: rest => ofGlyphs rest
  | .quoted text :: rest => (ofGlyphs rest).map (value (.text text) :: ·)
  | .word cs :: rest =>
    match ofWord? cs with
    | some v => (ofGlyphs rest).map (value v :: ·)
    | none =>
      match rest with
      | .symbol sign :: .word exponent :: behind =>
        match float? cs sign exponent with
        | some x => (ofGlyphs behind).map (value (.float x) :: ·)
        | none =>
          (ofGlyphs (.symbol sign :: .word exponent :: behind)).map
            (identifier (String.ofList cs) :: ·)
      | rest => (ofGlyphs rest).map (identifier (String.ofList cs) :: ·)
  | .symbol c :: rest =>
    match doubled? c with
    | some both =>
      match rest with
      | .symbol d :: .symbol e :: behind =>
        if d ≠ c then none
        else if e = '=' then (ofGlyphs behind).map (assign false :: ·)
        else (ofGlyphs (.symbol e :: behind)).map (both :: ·)
      | .symbol d :: behind => if d = c then (ofGlyphs behind).map (both :: ·) else none
      | _ => none
    | none =>
      match rest with
      | .symbol d :: behind =>
        match withEquals? c, d with
        | some combined, '=' => (ofGlyphs behind).map (combined :: ·)
        | _, _ =>
          match operator? c with
          | some alone => (ofGlyphs (.symbol d :: behind)).map (alone :: ·)
          | none => none
      | rest =>
        match operator? c with
        | some alone => (ofGlyphs rest).map (alone :: ·)
        | none => none
termination_by glyphs => glyphs.length

/-- The tokens of a source text. -/
def read (source : String) : Option (List Token) :=
  (Glyph.scan .plain source.toList).bind ofGlyphs

/-- A value or call may start with this token. -/
def startsOperand : Token → Bool
  | opening | identifier _ | value _ => true
  | _ => false

/-- A value or group ends with this token. -/
def endsOperand : Token → Bool
  | closing | identifier _ | value _ => true
  | _ => false

/-- One of the assignments. -/
def isAssignment : Token → Bool
  | assign _ => true
  | _ => false

end Token
end BeanContainer.Predicate
