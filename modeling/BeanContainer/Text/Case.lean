/-
# Case of texts

Upper and lower case of whole texts, with the mappings that take several characters (`ß` is
`SS` in upper case) and the final form of the sigma.

Key definitions:
- `upperChar`, `lowerChar`, what one character becomes.
- `toUpper`, `toLower`, what a text becomes.
-/
import BeanContainer.Text.CaseTable

namespace BeanContainer.Text

/-- Where the runs take a code point. -/
def shift (runs : List CaseRun) (code : Nat) : Nat :=
  match runs.find? fun run =>
    run.first ≤ code && code ≤ run.last && (code - run.first) % run.stride == 0 with
  | some run => (code + run.offset).toNat
  | none => code

/-- What a character becomes under a case mapping. -/
def mapCase (runs : List CaseRun) (sequences : List (Nat × List Nat)) (c : Char) : List Char :=
  match sequences.lookup c.toNat with
  | some codes => codes.map Char.ofNat
  | none => [Char.ofNat (shift runs c.toNat)]

/-- The upper case of a character. -/
def upperChar (c : Char) : List Char :=
  mapCase upperRuns upperSequences c

/-- The lower case of a character, apart from its neighbours. -/
def lowerChar (c : Char) : List Char :=
  mapCase lowerRuns lowerSequences c

/-- Whether the first character that is not case-ignorable is a cased one. -/
def leadsToCased (cs : List Char) : Bool :=
  (cs.dropWhile caseIgnorable.contains).head?.any cased.contains

/-- The lower case of a text whose reversed beginning is `before`: a sigma is final when a cased
character stands before it and none behind it. -/
def lowerChars (before : List Char) : List Char → List Char
  | [] => []
  | c :: cs =>
    let lower :=
      if c = 'Σ' then if leadsToCased before && !leadsToCased cs then ['ς'] else ['σ']
      else lowerChar c
    lower ++ lowerChars (c :: before) cs

/-- The text in upper case. -/
def toUpper (s : String) : String :=
  String.ofList (s.toList.flatMap upperChar)

/-- The text in lower case. -/
def toLower (s : String) : String :=
  String.ofList (lowerChars [] s.toList)

end BeanContainer.Text
