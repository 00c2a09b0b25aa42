/-
# Nodes of the property store

A node is a text, or a branch whose children carry labels: names in a map, positions in an
array. Arrays are sparse, a skipped position has no child.

Key definitions:
- `Node`, and `Node.kind`.
- `Children.find?` and `Children.put`, reading and writing one child; `put` keeps the children
  in label order.
- `Node.at?`, the node at a path, and `Node.write`, which puts a text at a path and keeps the
  kind of every node that exists.
- `Node.leaves`, the texts in the node with their paths.
-/
import BeanContainer.Key

namespace BeanContainer

/-- A node of the store. The children of a branch stand in label order. -/
inductive Node where
  | value (text : String)
  | map (children : List (Label × Node))
  | array (children : List (Label × Node))
  deriving Repr, Inhabited

/-- The children of a branch, in label order. -/
abbrev Children := List (Label × Node)

namespace Children

/-- The child that carries the label. -/
def find? (label : Label) : Children → Option Node
  | [] => none
  | (other, child) :: rest => if other = label then some child else find? label rest

/-- Puts `node` under `label`, in place of the child that was there. -/
def put (label : Label) (node : Node) : Children → Children
  | [] => [(label, node)]
  | (other, child) :: rest =>
    if other = label then (label, node) :: rest
    else if label.lt other then (label, node) :: (other, child) :: rest
    else (other, child) :: put label node rest

end Children

namespace Node

/-- What the node is. -/
def kind : Node → NodeKind
  | value _ => .value
  | map _ => .map
  | array _ => .array

/-- The children that a node may have under `label`: those of a map for a name, those of an
array for a position, and none else. -/
def branch? : Node → Label → Option Children
  | map children, .name _ => some children
  | array children, .position _ => some children
  | _, _ => none

/-- The branch with these children that has room for `label`. -/
def ofChildren : Label → Children → Node
  | .name _, children => map children
  | .position _, children => array children

/-- A node that holds `text` at `path` and nothing else. -/
def single (text : String) : List Label → Node
  | [] => value text
  | label :: rest => ofChildren label [(label, single text rest)]

/-- The node at `path`. -/
def at? : List Label → Node → Option Node
  | [], node => some node
  | label :: rest, node => do
    let child ← Children.find? label (← node.branch? label)
    child.at? rest

/-- Where a write stops: at the node `depth` steps down, of the given kind. -/
structure Conflict where
  depth : Nat
  kind : NodeKind
  deriving DecidableEq, Repr

/-- The conflict as it is seen from one step further up. -/
def Conflict.above (conflict : Conflict) : Conflict :=
  { conflict with depth := conflict.depth + 1 }

/-- Puts `text` at `path`. Nodes that are missing are made; a node that exists keeps its kind,
and an empty text on a branch leaves it as it is. -/
def write (text : String) : List Label → Option Node → Except Conflict Node
  | path, none => .ok (single text path)
  | [], some (value _) => .ok (value text)
  | [], some node => if text.isEmpty then .ok node else .error ⟨0, node.kind⟩
  | label :: rest, some node =>
    match node.branch? label with
    | none => .error ⟨0, node.kind⟩
    | some children =>
      match write text rest (Children.find? label children) with
      | .ok child => .ok (ofChildren label (Children.put label child children))
      | .error conflict => .error conflict.above

mutual

/-- The texts in a node that stands at `path`, with the paths that lead to them. -/
def leaves (path : List Label) : Node → List (List Label × String)
  | value text => [(path, text)]
  | map children => childLeaves path children
  | array children => childLeaves path children

/-- The texts in the children of the node at `path`. -/
def childLeaves (path : List Label) : Children → List (List Label × String)
  | [] => []
  | (label, child) :: rest => child.leaves (path ++ [label]) ++ childLeaves path rest

end

mutual

/-- Whether two nodes are the same. -/
def same : Node → Node → Bool
  | value a, value b => a == b
  | map a, map b => sameChildren a b
  | array a, array b => sameChildren a b
  | _, _ => false

/-- Whether two lists of children are the same. -/
def sameChildren : Children → Children → Bool
  | [], [] => true
  | (label, child) :: rest, (label', child') :: rest' =>
    label == label' && child.same child' && sameChildren rest rest'
  | _, _ => false

end

end Node
end BeanContainer
