/-
# Arguments of a command line

Options with values, in their short and long forms. A value stands behind its option or is part
of it, and one that begins with a hyphen has to be part of it.

Key definitions:
- `ArgumentFault`, why arguments are refused.
- `CommandOption`, and `Arguments.spelling`, what an argument spells.
- `Arguments.read`, the options up to the first argument that is none, and `Progress.settle`,
  which takes the last of them.
- `Arguments.definition?`, a pair of a key and a text, and `Arguments.definitions`, the pairs that
  a command line defines.
-/
import BeanContainer.Text.Blank

namespace BeanContainer

/-- Why the arguments of a command line are refused. -/
inductive ArgumentFault where
  /-- The value of an option does not read. -/
  | invalidContent
  /-- An option has no value. -/
  | missingValue
  | unknownArgument
  /-- A flag has a value. -/
  | needlessValue
  /-- An option stands twice that may stand once. -/
  | repeatedOption
  /-- A command or its argument is missing. -/
  | incomplete
  /-- No fault: help is asked for. -/
  | help
  deriving DecidableEq, Repr, Inhabited

/-- An option with a value. -/
structure CommandOption where
  long : String
  short : Option Char
  /-- Whether the option may stand more than once. -/
  repeatable : Bool
  /-- Why a value is refused, if it is. -/
  refuses : String → Option ArgumentFault

/-- What an argument spells. -/
inductive Spelling where
  /-- An option, with the value that is part of the argument. -/
  | option (name : String) (value : Option String)
  /-- The flag for help, with the value that is part of the argument. -/
  | help (value : Option String)
  /-- The mark behind which no options stand. -/
  | endOfOptions
  /-- It looks like an option and is none. -/
  | unknown
  /-- A word. -/
  | word
  deriving DecidableEq, Repr

namespace Arguments

/-- The characters before the first `=`, and those behind it if there is one. -/
def splitEquals (cs : List Char) : List Char × Option (List Char) :=
  match cs.dropWhile (· != '=') with
  | [] => (cs, none)
  | _ :: value => (cs.takeWhile (· != '='), some value)

/-- The value behind the letter of a short option; an equals sign may stand before it. -/
def attached : List Char → Option String
  | [] => none
  | '=' :: value => some (String.ofList value)
  | value => some (String.ofList value)

/-- What an argument spells when these options are known. -/
def spelling (options : List CommandOption) (argument : String) : Spelling :=
  match argument.toList with
  | ['-', '-'] => .endOfOptions
  | '-' :: '-' :: cs =>
    let (name, value) := splitEquals cs
    let name := String.ofList name
    let value := value.map String.ofList
    if name = "help" then .help value
    else match options.find? (·.long == name) with
      | some option => .option option.long value
      | none => .unknown
  | '-' :: c :: cs =>
    if c = 'h' then .help none
    else match options.find? (·.short == some c) with
      | some option => .option option.long (attached cs)
      | none => .unknown
  | _ => .word

/-- What was read so far: the values of options, and the option that stood last, with the value
behind it unless it is still to come. -/
structure Progress where
  given : List (String × String)
  last : Option (String × Option String)
  deriving DecidableEq, Repr, Inhabited

namespace Progress

/-- Nothing was read. -/
def start : Progress := ⟨[], none⟩

/-- Takes the value of an option. -/
def take (options : List CommandOption) (name value : String) (progress : Progress) :
    Except ArgumentFault Progress :=
  match options.find? (·.long == name) with
  | none => .error .unknownArgument
  | some option =>
    if !option.repeatable && progress.given.any (·.1 == name) then .error .repeatedOption
    else match option.refuses value with
      | some fault => .error fault
      | none => .ok ⟨progress.given ++ [(name, value)], none⟩

/-- Takes the option that stood last; its value has to be there. -/
def settle (options : List CommandOption) (progress : Progress) :
    Except ArgumentFault Progress :=
  match progress.last with
  | none => .ok progress
  | some (_, none) => .error .missingValue
  | some (name, some value) => take options name value ⟨progress.given, none⟩

end Progress

/-- Reads the options in front, and gives the arguments from the first word on. The option that
stood last is not taken yet: its value counts only after the words. Behind the mark that ends the
options nothing may stand. -/
def read (options : List CommandOption) (progress : Progress) :
    List String → Except ArgumentFault (Progress × List String)
  | [] => .ok (progress, [])
  | argument :: rest =>
    match spelling options argument, progress.last with
    | .word, some (name, none) =>
      read options { progress with last := some (name, some argument) } rest
    | .word, _ => .ok (progress, argument :: rest)
    | .endOfOptions, _ => if rest.isEmpty then .ok (progress, []) else .error .unknownArgument
    | .unknown, _ => .error .unknownArgument
    | .help (some _), _ => .error .needlessValue
    | .help none, _ => do
      let _ ← progress.settle options
      .error .help
    | .option name none, _ => do
      let progress ← progress.settle options
      read options { progress with last := some (name, none) } rest
    | .option name (some value), _ => do
      let progress ← progress.settle options
      read options (← progress.take options name value) rest

/-- The key and the text that a definition of the form `key=text` gives. -/
def definition? (value : String) : Option (String × String) :=
  match splitEquals value.toList with
  | (_, none) => none
  | (key, some text) =>
    match Text.trimChars key with
    | [] => none
    | key => some (String.ofList key, String.ofList text)

/-- The option that defines a property. -/
def defineOption : CommandOption where
  long := "define"
  short := some 'D'
  repeatable := true
  refuses value := if (definition? value).isSome then none else some .invalidContent

/-- The definitions among the values of options. -/
def definitionsOf (given : List (String × String)) : List (String × String) :=
  (given.filter (·.1 == defineOption.long)).filterMap fun (_, value) => definition? value

/-- The definitions that a command line without words makes. -/
def definitions (arguments : List String) : Except ArgumentFault (List (String × String)) :=
  match read [defineOption] .start arguments with
  | .error fault => .error fault
  | .ok (progress, []) => do return definitionsOf (← progress.settle [defineOption]).given
  | .ok (_, _ :: _) => .error .unknownArgument

end Arguments
end BeanContainer
