/-
# The command line

A program that shows the properties an application would see: all of them, the text that a
template stands for, or the truth value of a predicate.

Key definitions:
- `Command` and `Invocation`, what is asked for, and `Invocation.parse`.
- `isLevel`, whether a word names a level of logging.
- `Invocation.run`, the lines of the answer.
-/
import BeanContainer.Configuration
import BeanContainer.Binding
import BeanContainer.Text.Shown

namespace BeanContainer

/-- What is asked for. -/
inductive Command where
  | keys
  | resolve (template : String)
  | eval (predicate : String)
  deriving DecidableEq, Repr, Inhabited

/-- The arguments of the program. -/
structure Invocation where
  files : List String
  scope : String
  level : String
  definitions : List (String × String)
  command : Command
  deriving DecidableEq, Repr, Inhabited

namespace Invocation

/-- The option that names a file with a document. -/
def fileOption : CommandOption where
  long := "json"
  short := none
  repeatable := true
  refuses value := if value.isEmpty then some .missingValue else none

/-- The option that says with what the names of environment variables begin. -/
def scopeOption : CommandOption := ⟨"env-prefix", none, false, fun _ => none⟩

/-- The option that sets the level of logging. -/
def levelOption : CommandOption := ⟨"log", none, false, fun _ => none⟩

/-- All options. -/
def options : List CommandOption :=
  [fileOption, scopeOption, levelOption, Arguments.defineOption]

/-- The words behind a command, which has room for so many. They may stand behind the mark that
ends the options. -/
def operands (room : Nat) : List String → Except ArgumentFault (List String)
  | [] => .ok []
  | argument :: rest =>
    match Arguments.spelling [] argument, room with
    | .word, room + 1 => do return argument :: (← operands room rest)
    | .endOfOptions, room => if rest.length ≤ room then .ok rest else .error .unknownArgument
    | .help none, _ => .error .help
    | _, _ => .error .unknownArgument

/-- The one word behind a command. -/
def operand (words : List String) : Except ArgumentFault String := do
  match ← operands 1 words with
  | [word] => return word
  | _ => throw .incomplete

/-- The names of the commands. -/
def commandNames : List String := ["keys", "resolve", "eval", "help"]

/-- Help is given on the program or on one of its commands. -/
def helpOn : List String → ArgumentFault
  | [] => .help
  | [name] => if name ∈ commandNames then .help else .unknownArgument
  | _ => .unknownArgument

/-- The command that words stand for. -/
def readCommand : List String → Except ArgumentFault Command
  | "keys" :: rest => do
    let _ ← operands 0 rest
    return .keys
  | "resolve" :: rest => do return .resolve (← operand rest)
  | "eval" :: rest => do return .eval (← operand rest)
  | "help" :: names => .error (helpOn names)
  | _ :: _ => .error .unknownArgument
  | [] => .error .incomplete

/-- What the arguments of the program ask for. -/
def parse (arguments : List String) : Except ArgumentFault Invocation := do
  let (progress, words) ← Arguments.read options .start arguments
  let command ← readCommand words
  let given := (← progress.settle options).given
  let last (option : CommandOption) (default : String) : String :=
    (given.lookup option.long).getD default
  return {
    files := (given.filter (·.1 == fileOption.long)).map (·.2)
    scope := last scopeOption Environment.defaultScope
    level := last levelOption "warn"
    definitions := Arguments.definitionsOf given
    command }

end Invocation

/-- The levels of logging. -/
def levels : List String := ["off", "error", "warn", "info", "debug", "trace"]

/-- Whether a word names a level of logging: by its name in any case or by its number, and an
empty one stands for errors. -/
def isLevel (word : String) : Bool :=
  let cs := (Text.trimChars word.toList).map Char.toLower
  cs.isEmpty || levels.contains (String.ofList cs) ||
    match readInt .u64 (String.ofList cs) with
    | .ok n => n < levels.length
    | .error _ => false

namespace Invocation

/-- The sources that an invocation names; `text?` gives the texts of files. -/
def sources (invocation : Invocation) (text? : String → Option String)
    (settings : List (String × String)) : Except ApplicationFault (List PropertySource) := do
  let documents ← invocation.files.mapM fun file =>
    match text? file with
    | none => .error .unreadableFile
    | some text => PropertySource.ofText file text
  let environment :=
    if invocation.scope.isEmpty then []
    else [.environment (.ofPairs invocation.scope settings)]
  return documents ++ environment ++ [.definitions invocation.definitions]

/-- The line that shows a property: its expanded text, or why it has none. -/
def propertyLine (store : Store) (key : String) : String :=
  match store.resolve ((store.get? key).getD "") with
  | .ok text => key ++ "=" ++ text
  | .error fault => key ++ "=<" ++ fault.message ++ ">"

/-- The lines that answer a command. -/
def answer (store : Store) : Command → Except Fault (List String)
  | .keys => .ok (store.keys.map (propertyLine store))
  | .resolve template => do return [← store.resolve template]
  | .eval predicate => do return [Text.ofBool (← store.evaluate predicate)]

/-- The lines that answer an invocation. -/
def run (invocation : Invocation) (text? : String → Option String)
    (settings : List (String × String)) : Except ApplicationFault (List String) := do
  if isLevel invocation.level then
    let sources ← invocation.sources text? settings
    let store ← Store.ofSources sources
    match answer store invocation.command with
    | .ok lines => return lines
    | .error fault => throw (.core fault)
  else throw (.unknownLevel invocation.level)

end Invocation
end BeanContainer
