/-
# Evaluation of predicates

Every operand is evaluated before its operator, from the left to the right. Arithmetic on two
integers is exact and stays in 64 bits or fails; any other arithmetic is in floating point.

Key definitions:
- `EvalFault`, a name without a value, or another failure or panic with its reason.
- `BinaryOperator.apply` and `Function.apply`, what operators and functions do.
- `Tree.eval`, the value of a tree.
-/
import BeanContainer.Predicate.Numeric
import BeanContainer.Predicate.Tree
import BeanContainer.Text.Case
import BeanContainer.Text.Quoted

namespace BeanContainer.Predicate

/-- Why a tree has no value. -/
inductive EvalFault where
  | missing (name : String)
  | failed (reason : String)
  | panicked (reason : String)
  deriving DecidableEq, Repr, Inhabited

/-- The result of a part of a predicate. -/
abbrev Eval := Except EvalFault

/-- A failure with its reason. -/
def fail {α : Type} (reason : String) : Eval α :=
  .error (.failed reason)

namespace Value

/-- An integer that has to fit into 64 bits. -/
def checkedInt (n : Int) : Eval Value :=
  if IntWidth.i64.least ≤ n && n ≤ IntWidth.i64.greatest then .ok (int n)
  else fail "the integer does not fit"

/-- A number, as floating point. -/
def number? : Value → Option Float
  | int n => some (Real64.ofInt n)
  | float x => some x
  | _ => none

/-- The number a value has to be. -/
def asNumber (value : Value) : Eval Float :=
  match value.number? with
  | some x => .ok x
  | none => fail "a number was expected"

/-- The integer a value has to be. -/
def asInt : Value → Eval Int
  | int n => .ok n
  | _ => fail "an integer was expected"

/-- The text a value has to be. -/
def asText : Value → Eval String
  | text s => .ok s
  | _ => fail "a text was expected"

/-- The truth value a value has to be. -/
def asBool : Value → Eval Bool
  | bool b => .ok b
  | _ => fail "a truth value was expected"

/-- The items of the tuple a value has to be. -/
def asTuple : Value → Eval (List Value)
  | tuple items => .ok items
  | _ => fail "a tuple was expected"

end Value

namespace BinaryOperator

/-- An operation on two integers, which is exact, or on two numbers. -/
def arithmetic (exact : Int → Int → Eval Value) (float : Float → Float → Float) (a b : Value) :
    Eval Value := do
  match a, b with
  | .int m, .int n => exact m n
  | _, _ => return .float (float (← a.asNumber) (← b.asNumber))

/-- A comparison of two texts or two numbers. -/
def comparison (texts : String → String → Bool) (ints : Int → Int → Bool)
    (floats : Float → Float → Bool) (a b : Value) : Eval Value := do
  match a, b with
  | .text s, .text t => return .bool (texts s t)
  | .int m, .int n => return .bool (ints m n)
  | _, _ => return .bool (floats (← a.asNumber) (← b.asNumber))

/-- The value of an operator on two operands. -/
def apply : BinaryOperator → Value → Value → Eval Value
  | add, .text s, .text t => .ok (.text (s ++ t))
  | add, a, b => arithmetic (fun m n => Value.checkedInt (m + n)) (· + ·) a b
  | sub, a, b => arithmetic (fun m n => Value.checkedInt (m - n)) (· - ·) a b
  | mul, a, b => arithmetic (fun m n => Value.checkedInt (m * n)) (· * ·) a b
  | div, a, b =>
    arithmetic (fun m n => if n = 0 then fail "division by zero" else
      Value.checkedInt (m.tdiv n)) (· / ·) a b
  | mod, a, b =>
    arithmetic (fun m n =>
      if n = 0 then fail "division by zero"
      else if m = IntWidth.i64.least && n = -1 then fail "the integer does not fit"
      else Value.checkedInt (m.tmod n)) Real64.remainder a b
  | pow, a, b => do return .float (Float.pow (← a.asNumber) (← b.asNumber))
  | eq, a, b => .ok (.bool (a.same b))
  | ne, a, b => .ok (.bool (!a.same b))
  | gt, a, b => comparison (fun s t => t < s) (fun m n => n < m) (fun x y => y < x) a b
  | lt, a, b => comparison (fun s t => s < t) (fun m n => m < n) (fun x y => x < y) a b
  | ge, a, b => comparison (fun s t => t ≤ s) (fun m n => n ≤ m) (fun x y => y ≤ x) a b
  | le, a, b => comparison (fun s t => s ≤ t) (fun m n => m ≤ n) (fun x y => x ≤ y) a b
  | and, a, b => do
    let p ← a.asBool
    let q ← b.asBool
    return .bool (p && q)
  | or, a, b => do
    let p ← a.asBool
    let q ← b.asBool
    return .bool (p || q)

end BinaryOperator

namespace Function

/-- The smaller number; one that is no number gives way. -/
def least (x y : Float) : Float :=
  if x.isNaN then y else if y < x then y else x

/-- The greater number; one that is no number gives way. -/
def greatest (x y : Float) : Float :=
  if x.isNaN then y else if x < y then y else x

/-- The least or greatest item of a tuple of numbers: `n` and `x` are those found among the
integers and among the other numbers so far, and the integer is taken when `better` says so. -/
def extreme (ints : Int → Int → Int) (floats : Float → Float → Float)
    (better : Float → Float → Bool) : Int → Float → List Value → Eval Value
  | n, x, [] => .ok (if better (Real64.ofInt n) x then .int n else .float x)
  | n, x, .int m :: rest => extreme ints floats better (ints n m) x rest
  | n, x, .float y :: rest => extreme ints floats better n (floats x y) rest
  | _, _, _ :: _ => fail "a number was expected"

/-- What may be looked for in a tuple. -/
def isAtom : Value → Bool
  | .text _ | .int _ | .float _ | .bool _ => true
  | _ => false

/-- A position in a text. -/
def offset (value : Value) : Eval Nat := do
  let n ← value.asInt
  if n < 0 then fail "a position was expected" else return n.toNat

/-- The character that has a byte offset inside it, with the offsets of its ends; the characters
begin at `start`. -/
def charAround? (offset start : Nat) : List Char → Option (Char × Nat × Nat)
  | [] => none
  | c :: cs =>
    let stop := start + c.utf8Size
    if start < offset && offset < stop then some (c, start, stop) else charAround? offset stop cs

/-- Refuses an offset inside a character; `side` says which offset it is. -/
def requireBoundary (s : String) (side : String) (offset : Nat) : Eval Unit :=
  match charAround? offset 0 s.toList with
  | none => .ok ()
  | some (c, start, stop) =>
    .error (.panicked (side ++ " byte index " ++ offset.repr
      ++ " is not a char boundary; it is inside " ++ Text.quotedChar c ++ " (bytes " ++ start.repr
      ++ ".." ++ stop.repr ++ " of string)"))

/-- The bytes `start` to `stop` of a text; characters have to begin there. -/
def substring (s : String) (start stop : Nat) : Eval Value := do
  if stop < start || s.utf8ByteSize < stop then fail "out of bounds"
  else
    requireBoundary s "start" start
    requireBoundary s "end" stop
    match String.fromUTF8? (s.toUTF8.extract start stop) with
    | some part => return .text part
    | none => fail "out of bounds"

/-- An operation on the bits of two integers. -/
def bitwise (operation : Int64 → Int64 → Int64) (argument : Value) : Eval Value := do
  match ← argument.asTuple with
  | [a, b] => return .int (operation (Int64.ofInt (← a.asInt)) (Int64.ofInt (← b.asInt))).toInt
  | _ => fail "two arguments were expected"

/-- The value of a function of numbers at its argument. -/
def numeric (name : String) (argument : Value) : Eval Value :=
  match Numeric.ofOne.lookup name, Numeric.ofTwo.lookup name, Numeric.tests.lookup name with
  | some function, _, _ => do return .float (function (← argument.asNumber))
  | _, some function, _ => do
    match ← argument.asTuple with
    | [a, b] => return .float (function (← a.asNumber) (← b.asNumber))
    | _ => fail "two arguments were expected"
  | _, _, some test => do return .bool (test (← argument.asNumber))
  | none, none, none => fail "the function is not known"

/-- The value of a function at its argument. -/
def apply (name : String) (argument : Value) : Eval Value :=
  match name with
  | "len" =>
    match argument with
    | .text s => .ok (.int s.utf8ByteSize)
    | .tuple items => .ok (.int items.length)
    | _ => fail "a text or tuple was expected"
  | "min" => do
    extreme min least (fun n x => n < x) IntWidth.i64.greatest (1 / 0) (← argument.asTuple)
  | "max" => do
    extreme max greatest (fun n x => x < n) IntWidth.i64.least (-1 / 0) (← argument.asTuple)
  | "if" => do
    match ← argument.asTuple with
    | [condition, yes, no] => return if ← condition.asBool then yes else no
    | _ => fail "three arguments were expected"
  | "contains" => do
    match ← argument.asTuple with
    | [.tuple items, wanted] =>
      if isAtom wanted then return .bool (items.any (·.same wanted))
      else fail "a scalar was expected"
    | _ => fail "a tuple and a scalar were expected"
  | "contains_any" => do
    match ← argument.asTuple with
    | [.tuple items, .tuple wanted] =>
      if wanted.all isAtom then
        return .bool (wanted.any fun value => items.any (·.same value))
      else fail "a scalar was expected"
    | _ => fail "two tuples were expected"
  | "typeof" => .ok (.text argument.typeName)
  | "math::abs" =>
    match argument with
    | .int n => .ok (.int (Int64.ofInt n).abs.toInt)
    | _ => do return .float (← argument.asNumber).abs
  | "str::to_lowercase" => do return .text (Text.toLower (← argument.asText))
  | "str::to_uppercase" => do return .text (Text.toUpper (← argument.asText))
  | "str::trim" => do return .text (Text.trim (← argument.asText))
  | "str::from" => .ok (.text argument.plain)
  | "str::substring" => do
    match ← argument.asTuple with
    | [s, start] =>
      let s ← s.asText
      substring s (← offset start) s.utf8ByteSize
    | [s, start, stop] => substring (← s.asText) (← offset start) (← offset stop)
    | _ => fail "two or three arguments were expected"
  | "bitand" => bitwise (· &&& ·) argument
  | "bitor" => bitwise (· ||| ·) argument
  | "bitxor" => bitwise (· ^^^ ·) argument
  | "bitnot" => do return .int (~~~Int64.ofInt (← argument.asInt)).toInt
  | "shl" => bitwise (· <<< ·) argument
  | "shr" => bitwise (· >>> ·) argument
  | _ => numeric name argument

end Function

/-- The value of an operator on its operands. Operators fail on operands of the wrong number,
and assignments always. -/
def Operator.apply (lookup : String → Option Value) : Operator → List Value → Eval Value
  | .group, [] => .ok .empty
  | .group, value :: _ => .ok value
  | .binary operator, [a, b] => operator.apply a b
  | .negate, [.int n] => Value.checkedInt (-n)
  | .negate, [value] => do return .float (-(← value.asNumber))
  | .not, [value] => do return .bool (!(← value.asBool))
  | .tuple, items => .ok (.tuple items)
  | .chain, items =>
    match items.getLast? with
    | some value => .ok value
    | none => fail "an operand is missing"
  | .constant value, [] => .ok value
  | .read name, [] =>
    match lookup name with
    | some value => .ok value
    | none => .error (.missing name)
  | .write name, [] => .ok (.text name)
  | .call function, [argument] => Function.apply function argument
  | .assign _, _ => fail "nothing can be assigned to"
  | _, _ => fail "an operand is missing"

namespace Tree

mutual

/-- The value of a tree. -/
def eval (lookup : String → Option Value) : Tree → Eval Value
  | node operator operands => do operator.apply lookup (← evalOperands lookup operands)

/-- The values of operands of which the last comes first, in the order of the operands. -/
def evalOperands (lookup : String → Option Value) : List Tree → Eval (List Value)
  | [] => .ok []
  | last :: earlier => do
    let before ← evalOperands lookup earlier
    let value ← last.eval lookup
    return before ++ [value]

end

end Tree
end BeanContainer.Predicate
