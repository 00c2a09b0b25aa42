/-
# The property store

Texts kept under keys. Every node is a text, a map or an array, and keeps being that for as
long as the store lives.

Key definitions:
- `Store`, a tree that may still be empty.
- `Store.set`, which refuses a write that would change the kind of a node.
- `Store.node?`, `get?`, `has`, `subKeys` and `keys`, what is stored.
-/
import BeanContainer.Store.Node

namespace BeanContainer

/-- Texts kept under keys. -/
structure Store where
  root : Option Node
  deriving Repr, Inhabited

namespace Store

/-- The store that holds nothing. -/
def empty : Store := ⟨none⟩

/-- How a conflict names the root. -/
def rootName : String := "<root>"

/-- The name of the node that the first segments lead to. -/
def nodeName : List Segment → String
  | [] => rootName
  | segments => Key.join segments

/-- Puts `text` at `key`. A write that is refused leaves the store as it was. -/
def set (store : Store) (key text : String) : Except Fault Store := do
  let segments ← Key.split key
  match Key.labels? segments with
  | none | some [] => .error (.invalidKey key)
  | some path =>
    match Node.write text path store.root with
    | .ok root => .ok ⟨some root⟩
    | .error conflict =>
      .error (.kindConflict (nodeName (segments.take conflict.depth)) conflict.kind key)

/-- Puts the texts at their keys, one after the other. -/
def setAll (store : Store) (pairs : List (String × String)) : Except Fault Store :=
  pairs.foldlM (fun store (key, text) => store.set key text) store

/-- The store that holds the pairs. -/
def ofPairs (pairs : List (String × String)) : Except Fault Store :=
  empty.setAll pairs

/-- The node at a path. -/
def at? (store : Store) (path : List Label) : Option Node :=
  store.root.bind (Node.at? path)

/-- The node at `key`; a text that is no key leads nowhere. -/
def node? (store : Store) (key : String) : Option Node :=
  match Key.split key with
  | .ok segments => (Key.labels? segments).bind store.at?
  | .error _ => none

/-- The text at `key`, when a text is there. -/
def get? (store : Store) (key : String) : Option String :=
  match store.node? key with
  | some (.value text) => some text
  | _ => none

/-- Whether there is a node at `key`. -/
def has (store : Store) (key : String) : Bool :=
  (store.node? key).isSome

/-- The labels of the children at `key`; a missing key has none. -/
def subKeys (store : Store) (key : String) : Except Fault (List String) := do
  let _ ← Key.split key
  match store.node? key with
  | none => .ok []
  | some (.map children) | some (.array children) => .ok (children.map (·.1.text))
  | some (.value _) => .error (.kindConflict key .value key)

/-- The texts with the paths they stand at. -/
def leaves (store : Store) : List (List Label × String) :=
  match store.root with
  | none => []
  | some root => root.leaves []

/-- The keys of all texts, in order. -/
def keys (store : Store) : List String :=
  (store.leaves.map fun leaf => Key.ofLabels leaf.1).mergeSort (· ≤ ·)

/-- Whether two stores hold the same. -/
def same (a b : Store) : Bool :=
  match a.root, b.root with
  | none, none => true
  | some a, some b => a.same b
  | _, _ => false

end Store
end BeanContainer
