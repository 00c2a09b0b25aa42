/-
# Configuration

Where properties come from. Sources are applied in order, and a later one overwrites what an
earlier one wrote.

Key definitions:
- `SourceFault` and `ApplicationFault`, the causes outside of the container.
- `PropertySource`, and `PropertySource.load`, the pairs that a source has for a store.
- `PropertySource.apply`, which writes them, and `Store.ofSources`.
-/
import BeanContainer.Configuration.Arguments
import BeanContainer.Configuration.Environment
import BeanContainer.Document.Reader

namespace BeanContainer

/-- Why a source gives no properties. -/
inductive SourceFault where
  /-- The store refuses a pair. -/
  | refused (fault : Fault)
  /-- The document is a scalar. -/
  | scalarDocument (document : Document)
  deriving Inhabited

/-- The wording of a source's fault. -/
def SourceFault.message : SourceFault → String
  | refused fault => fault.message
  | scalarDocument document =>
    "document root must be an object or an array, got " ++ document.shown

/-- Everything that can go wrong in an application. -/
inductive ApplicationFault where
  /-- The container fails. -/
  | core (fault : Fault)
  /-- A source of properties fails. -/
  | source (name : String) (reason : SourceFault)
  /-- A file can't be read. -/
  | unreadableFile
  /-- A text is no document. -/
  | noDocument
  /-- A command line is refused. -/
  | arguments (reason : ArgumentFault)
  /-- A bean fails in its work. -/
  | work (name reason : String)
  /-- There is no such level of logging. -/
  | unknownLevel (level : String)
  deriving Inhabited

/-- The wording of an application's fault. -/
def ApplicationFault.message : ApplicationFault → String
  | core fault => fault.message
  | source name reason => "property source '" ++ name ++ "': " ++ reason.message
  | unreadableFile => "io error"
  | noDocument => "json error"
  | arguments _ => "invalid arguments"
  | work name reason => "runner '" ++ name ++ "' failed: " ++ reason
  | unknownLevel level => "logging: unknown log level '" ++ level ++ "'"

/-- A source of properties. -/
inductive PropertySource where
  | pairs (name : String) (pairs : List (String × String))
  | document (name : String) (document : Document)
  | environment (environment : Environment)
  /-- Definitions on a command line. -/
  | definitions (pairs : List (String × String))
  deriving Inhabited

namespace PropertySource

/-- The name of a source. -/
def name : PropertySource → String
  | pairs name _ => name
  | document name _ => name
  | environment _ => "environment"
  | definitions _ => "command line"

/-- The source of a document that is given as a text. -/
def ofText (name text : String) : Except ApplicationFault PropertySource :=
  match Document.read text with
  | some found => .ok (document name found)
  | none => .error .noDocument

/-- The pairs that the source has for a store. -/
def load (source : PropertySource) (store : Store) :
    Except ApplicationFault (List (String × String)) :=
  match source with
  | pairs _ found => .ok found
  | document name found =>
    match found.flatten? with
    | some written => .ok written
    | none => .error (.source name (.scalarDocument found))
  | environment found => .ok (found.pairsFor store)
  | definitions found => .ok found

/-- Writes pairs into a store up to the first that is refused. -/
def write (name : String) (store : Store) :
    List (String × String) → Store × Except ApplicationFault Unit
  | [] => (store, .ok ())
  | (key, text) :: rest =>
    match store.set key text with
    | .ok store => write name store rest
    | .error fault => (store, .error (.source name (.refused fault)))

/-- Writes the pairs of the source into a store, and gives their number. The pairs before one that
is refused stay written. -/
def apply (source : PropertySource) (store : Store) : Store × Except ApplicationFault Nat :=
  match source.load store with
  | .error fault => (store, .error fault)
  | .ok found =>
    let (store, outcome) := write source.name store found
    (store, outcome.map fun _ => found.length)

/-- Writes the pairs of sources into a store, one source after the other. -/
def applyAll (store : Store) : List PropertySource → Except ApplicationFault Store
  | [] => .ok store
  | source :: rest =>
    match source.apply store with
    | (_, .error fault) => .error fault
    | (store, .ok _) => applyAll store rest

end PropertySource

/-- The store that sources fill. -/
def Store.ofSources (sources : List PropertySource) : Except ApplicationFault Store :=
  PropertySource.applyAll .empty sources

end BeanContainer
