/-
# Property keys

A key such as `a.b[0].c` is a list of segments: names separated by dots, and positions in
brackets. This file holds the grammar's reader and writer.

Key definitions:
- `Segment`, one step of a key; a position keeps its digits as written, so that `a[007]` is
  written back as it was read.
- `split`, the reader, and `join`, the writer.
- `Label`, a segment with its position taken as a number: two keys that spell one place
  differently have the same labels.
- `Key.under`, a key read relative to another one.
-/
import BeanContainer.Fault

namespace BeanContainer

/-- One step of a key. -/
inductive Segment where
  | name (text : String)
  | position (digits : String)
  deriving DecidableEq, Repr, Inhabited

namespace Segment

/-- The name, or the digits between the brackets. -/
def text : Segment → String
  | name text => text
  | position digits => digits

/-- The segment as it is written on its own. -/
def shown : Segment → String
  | name text => text
  | position digits => "[" ++ digits ++ "]"

/-- The segment as it is written behind another one. -/
def continuation : Segment → String
  | name text => "." ++ text
  | position digits => "[" ++ digits ++ "]"

/-- The position `index`, written in decimal. -/
def ofIndex (index : Nat) : Segment :=
  position index.repr

end Segment

namespace Key

/-- The characters that structure a key, and so stand in no name. -/
def isDelimiter (c : Char) : Bool :=
  c == '.' || c == '[' || c == ']'

/-- A character that may stand in a name. -/
def isNameChar (c : Char) : Bool :=
  !isDelimiter c

/-- A decimal digit `0` to `9`. -/
def isDigit (c : Char) : Bool :=
  '0' ≤ c && c ≤ '9'

/-- The segments that continue a key: each is a dot with a nonempty name, or nonempty digits
in brackets. -/
def continuation? : List Char → Option (List Segment)
  | [] => some []
  | '.' :: cs =>
    match cs.takeWhile isNameChar with
    | [] => none
    | name => (continuation? (cs.dropWhile isNameChar)).map (.name (String.ofList name) :: ·)
  | '[' :: cs =>
    match cs.takeWhile isDigit, h : cs.dropWhile isDigit with
    | [], _ => none
    | digits, ']' :: rest =>
      have : rest.length < cs.length := by
        have := (List.dropWhile_suffix isDigit (l := cs)).length_le
        simp [h] at this; omega
      (continuation? rest).map (.position (String.ofList digits) :: ·)
    | _, _ => none
  | _ :: _ => none
termination_by cs => cs.length
decreasing_by
  · have shorter := (List.dropWhile_suffix isNameChar (l := cs)).length_le
    simp only [List.length_cons]
    omega
  · simp only [List.length_cons]
    omega

/-- A key that starts with a name reads as if a dot stood before it. -/
def segments? : List Char → Option (List Segment)
  | [] => some []
  | '[' :: cs => continuation? ('[' :: cs)
  | cs => continuation? ('.' :: cs)

/-- The segments of `key`; the empty key has none. -/
def split (key : String) : Except Fault (List Segment) :=
  match segments? key.toList with
  | some segments => .ok segments
  | none => .error (.invalidKey key)

/-- The key that the segments spell. -/
def join : List Segment → String
  | [] => ""
  | first :: rest => first.shown ++ String.join (rest.map Segment.continuation)

/-- The key `sub` taken relative to `parent`. -/
def under (parent sub : String) : String :=
  if parent.isEmpty then sub
  else if sub.isEmpty then parent
  else if sub.toList.head? = some '[' then parent ++ sub
  else parent ++ "." ++ sub

end Key

/-- A step from a node of the store to one of its children: a name, or a position as a number. -/
inductive Label where
  | name (text : String)
  | position (index : Nat)
  deriving DecidableEq, Repr, Inhabited

namespace Label

/-- Positions end below this bound. -/
def positionBound : Nat := 1 <<< 64

/-- The place a segment stands for; a position out of bounds stands for none. -/
def ofSegment? : Segment → Option Label
  | .name text => some (name text)
  | .position digits =>
    let index := digits.toList.foldl (fun n c => 10 * n + (c.toNat - '0'.toNat)) 0
    if index < positionBound then some (position index) else none

/-- The segment that spells the label without leading zeros. -/
def toSegment : Label → Segment
  | name text => .name text
  | position index => .ofIndex index

/-- The label's text without brackets. -/
def text : Label → String
  | name text => text
  | position index => index.repr

/-- The order of children: names by their code points, positions as numbers. -/
def lt : Label → Label → Bool
  | name a, name b => a < b
  | name _, position _ => true
  | position _, name _ => false
  | position i, position j => i < j

end Label

namespace Key

/-- The canonical path of a list of segments. -/
def labels? (segments : List Segment) : Option (List Label) :=
  segments.mapM Label.ofSegment?

/-- The canonical key of a path. -/
def ofLabels (path : List Label) : String :=
  join (path.map Label.toSegment)

end Key
end BeanContainer
