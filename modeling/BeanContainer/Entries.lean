/-
# Entries

Named values, one for each name, in the order of the names.

Key definitions: `Entries`, `Entries.put`, `Entries.ofPairs`.
-/
namespace BeanContainer

/-- Named values, in the order of the names. -/
abbrev Entries (α : Type) := List (String × α)

namespace Entries

/-- Puts a value under a name, in place of the one that was there. -/
def put {α : Type} (name : String) (value : α) : Entries α → Entries α
  | [] => [(name, value)]
  | (other, old) :: rest =>
    if other = name then (name, value) :: rest
    else if name < other then (name, value) :: (other, old) :: rest
    else (other, old) :: put name value rest

/-- The values of the pairs; of several with one name the last counts. -/
def ofPairs {α : Type} (pairs : List (String × α)) : Entries α :=
  pairs.foldl (fun entries (name, value) => put name value entries) []

end Entries
end BeanContainer
