/-
# Environment variables

Variables override properties by name, and those with a common beginning add further properties.

Key definitions:
- `Environment`, the variables with the beginning of the names that count.
- `Environment.nameFor`, the name of the variable that overrides a key.
- `Environment.overrides` and `Environment.imports`, the pairs of both kinds.
- `Environment.pairsFor`, the pairs that an environment has for a store.
-/
import BeanContainer.Entries
import BeanContainer.Store
import BeanContainer.Text.Case

namespace BeanContainer

/-- Environment variables. Those whose names begin with `scope` are properties. -/
structure Environment where
  scope : String
  settings : Entries String
  deriving Repr, Inhabited

namespace Environment

/-- The beginning of names that counts if no other is given. -/
def defaultScope : String := "WIREBOX_"

/-- The variable that sets the level of logging, and is no property. -/
def logVariable : String := "WIREBOX_LOG"

/-- The environment with these variables; of several with one name the last counts. -/
def ofPairs (scope : String) (pairs : List (String × String)) : Environment :=
  ⟨scope, Entries.ofPairs pairs⟩

/-- What a character of a key is in the name of a variable. -/
def variableChar (c : Char) : List Char :=
  if c = '.' || c = '[' || c = '-' then ['_']
  else if c = ']' then []
  else Text.upperChar c

/-- The name of the variable that overrides a key. -/
def nameFor (environment : Environment) (key : String) : String :=
  environment.scope ++ String.ofList (key.toList.flatMap variableChar)

/-- The variable that overrides a key, with its text. -/
def override? (environment : Environment) (key : String) : Option (String × String) :=
  environment.settings.find? (·.1 == environment.nameFor key)

/-- The keys of a store that variables override, with their texts. -/
def overrides (environment : Environment) (store : Store) : List (String × String) :=
  store.keys.filterMap fun key => (environment.override? key).map fun found => (key, found.2)

/-- The names of the variables that override keys of a store. -/
def used (environment : Environment) (store : Store) : List String :=
  store.keys.filterMap fun key => (environment.override? key).map (·.1)

/-- What stands behind the scope in a name. -/
def rest? (environment : Environment) (name : String) : Option (List Char) :=
  environment.scope.toList.isPrefixOf? name.toList

/-- The key that a variable names: what stands behind the scope, in small letters and with dots
for underscores. -/
def key? (environment : Environment) (name : String) : Option String :=
  match environment.rest? name with
  | none | some [] => none
  | some rest =>
    let lower := (Text.toLower (String.ofList rest)).toList
    some (String.ofList (lower.map fun c => if c = '_' then '.' else c))

/-- The pairs of variables that a store takes one after the other; those that it refuses are left
out. -/
def accepted (store : Store) : List (String × String) → List (String × String)
  | [] => []
  | (key, text) :: rest =>
    match store.set key text with
    | .ok store => (key, text) :: accepted store rest
    | .error _ => accepted store rest

/-- The properties that variables add to a store: those that override nothing. -/
def imports (environment : Environment) (store : Store) : List (String × String) :=
  if environment.scope.isEmpty then []
  else
    let used := environment.used store
    let others := environment.settings.filter fun (name, _) =>
      name ∉ used && name != logVariable
    accepted store (others.filterMap fun (name, text) =>
      (environment.key? name).map fun key => (key, text))

/-- The pairs that the environment has for a store. -/
def pairsFor (environment : Environment) (store : Store) : List (String × String) :=
  environment.overrides store ++ environment.imports store

end Environment
end BeanContainer
