/-
# The program

Reads the arguments, the files that they name and the environment, and prints the answer.
-/
import BeanContainer.CommandLine

namespace BeanContainer.Program

/-- What is printed when help is asked for. -/
def usage : String :=
  "usage: wirebox [--json FILE]... [--env-prefix PREFIX] [--log LEVEL] [-D KEY=VALUE]..."
    ++ " (keys | resolve TEMPLATE | eval PREDICATE)"

/-- The variable that a definition of the environment gives. -/
def ofDefinition? (bytes : List UInt8) : Option (String × String) := do
  let text ← String.fromUTF8? ⟨bytes.toArray⟩
  match Arguments.splitEquals text.toList with
  | (name, some value) => some (String.ofList name, String.ofList value)
  | (_, none) => none

/-- The variables of the environment, whose names and texts are Unicode. -/
def environmentVariables : IO (List (String × String)) := do
  try
    let bytes ← IO.FS.readBinFile "/proc/self/environ"
    return (bytes.toList.splitOn 0).filterMap ofDefinition?
  catch _ => return []

/-- The text of a file, if it can be read. -/
def fileText? (file : String) : IO (String × Option String) := do
  try return (file, some (← IO.FS.readFile file))
  catch _ => return (file, none)

/-- Answers an invocation and gives the exit code. -/
def run (invocation : Invocation) : IO UInt32 := do
  let texts ← invocation.files.mapM fileText?
  let settings ← environmentVariables
  match invocation.run (fun file => (texts.lookup file).join) settings with
  | .ok lines =>
    lines.forM IO.println
    return 0
  | .error fault =>
    IO.eprintln ("error: " ++ fault.message)
    return 1

end BeanContainer.Program

/-- The program. -/
def main (arguments : List String) : IO UInt32 := do
  match BeanContainer.Invocation.parse arguments with
  | .ok invocation => BeanContainer.Program.run invocation
  | .error .help =>
    IO.println BeanContainer.Program.usage
    return 0
  | .error _ =>
    IO.eprintln BeanContainer.Program.usage
    return 2
