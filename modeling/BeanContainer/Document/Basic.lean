/-
# Documents

Trees of objects, arrays and scalars, as configuration files hold them.

Key definitions:
- `Document`; the members of an object have different names and stand in the order of the names.
- `Document.numberLayout` and `Document.shown`, the text of a scalar document.
- `Document.flatten?`, the pairs of keys and texts that stand for a document in the store.
-/
import BeanContainer.Entries
import BeanContainer.Number.Decimal
import BeanContainer.Key
import BeanContainer.Predicate.Scalar

namespace BeanContainer

/-- A tree of objects, arrays and scalars. -/
inductive Document where
  | null
  | bool (b : Bool)
  | int (n : Int)
  | float (x : Float)
  | text (s : String)
  | array (items : List Document)
  | object (members : List (String × Document))
  deriving Repr, Inhabited

/-- The members of an object, in the order of their names. -/
abbrev Members := Entries Document

namespace Document

/-- Numbers in documents are written without an exponent from `0.00001` up to below
`10000000000000000`, and whole ones show that they are no integers. -/
def numberLayout : Layout := ⟨.even, some (-5, 16), ".0"⟩

/-- The text of a number that is no integer. -/
def numberText (x : Float) : String :=
  numberLayout.render binary64 (binary64.classify x.toBits.toNat)

/-- Two hexadecimal digits. -/
def hexByte (n : Nat) : List Char :=
  let digits := Nat.toDigits 16 n
  List.replicate (2 - digits.length) '0' ++ digits

/-- The written form of a character inside quotes. -/
def escapeChar (c : Char) : List Char :=
  if c = '"' then ['\\', '"']
  else if c = '\\' then ['\\', '\\']
  else if c = '\x08' then ['\\', 'b']
  else if c = '\x0c' then ['\\', 'f']
  else if c = '\n' then ['\\', 'n']
  else if c = '\r' then ['\\', 'r']
  else if c = '\t' then ['\\', 't']
  else if c < ' ' then ['\\', 'u', '0', '0'] ++ hexByte c.toNat
  else [c]

/-- The written form of a text. -/
def quoted (s : String) : String :=
  "\"" ++ String.ofList (s.toList.flatMap escapeChar) ++ "\""

mutual

/-- The written form of a document. -/
def shown : Document → String
  | null => "null"
  | bool b => Text.ofBool b
  | int n => n.repr
  | float x => numberText x
  | text s => quoted s
  | array items => "[" ++ ",".intercalate (shownItems items) ++ "]"
  | object members => "\x7b" ++ ",".intercalate (shownMembers members) ++ "\x7d"

/-- The written forms of the items of an array. -/
def shownItems : List Document → List String
  | [] => []
  | item :: rest => item.shown :: shownItems rest

/-- The written forms of the members of an object. -/
def shownMembers : Members → List String
  | [] => []
  | (name, value) :: rest => (quoted name ++ ":" ++ value.shown) :: shownMembers rest

end

/-- The text that stands for a scalar in the store; nothing stands for null. -/
def scalarText : Document → String
  | null => ""
  | text s => s
  | document => document.shown

mutual

/-- The keys and texts of the scalars in a document that stands at `key`. -/
def pairs (key : String) : Document → List (String × String)
  | array items => itemPairs key 0 items
  | object members => memberPairs key members
  | scalar => [(key, scalar.scalarText)]

/-- The keys and texts in the items of an array from position `index` on. -/
def itemPairs (key : String) (index : Nat) : List Document → List (String × String)
  | [] => []
  | item :: rest =>
    item.pairs (key ++ (Segment.ofIndex index).shown) ++ itemPairs key (index + 1) rest

/-- The keys and texts in the members of an object. -/
def memberPairs (key : String) : Members → List (String × String)
  | [] => []
  | (name, value) :: rest =>
    value.pairs (if key.isEmpty then name else key ++ "." ++ name) ++ memberPairs key rest

end

/-- Whether a document is neither an object nor an array. -/
def isScalar : Document → Bool
  | array _ | object _ => false
  | _ => true

/-- The keys and texts of the scalars in a document; none when the document is itself a scalar,
which has no key. -/
def flatten? (document : Document) : Option (List (String × String)) :=
  if document.isScalar then none else some (document.pairs "")

end Document
end BeanContainer
