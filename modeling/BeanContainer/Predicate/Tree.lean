/-
# Operator trees

Tokens are put into a tree one after the other. A new operator takes the place of the last
operand that binds less tightly than it, or becomes an operand itself; groups in parentheses and
the sequences made by `,` and `;` are kept on a stack until they end.

Key definitions:
- `Operator`, with its precedence and the number of its operands.
- `Tree`, and `Tree.insert`, which puts one more node into a tree.
- `Builder`, the stack of unfinished trees, with one step for each token.
- `Tree.ofTokens`, the tree of a row of tokens.
- `Tree.names`, the names that a tree reads or assigns to.
-/
import BeanContainer.Predicate.Token

namespace BeanContainer.Predicate

/-- The nodes of a tree. -/
inductive Operator where
  /-- A whole predicate, or a group in parentheses. -/
  | group
  | binary (operator : BinaryOperator)
  | negate
  | not
  | assign (plain : Bool)
  | tuple
  | chain
  | constant (value : Value)
  | read (name : String)
  | write (name : String)
  | call (function : String)
  deriving Repr, Inhabited

namespace Operator

/-- How tightly an operator binds. -/
def precedence : Operator → Nat
  | group | constant _ | read _ | write _ => 200
  | call _ => 190
  | binary .pow => 120
  | negate | not => 110
  | binary .mul | binary .div | binary .mod => 100
  | binary .add | binary .sub => 95
  | binary .eq | binary .ne | binary .gt | binary .lt | binary .ge | binary .le => 80
  | binary .and => 75
  | binary .or => 70
  | assign _ => 50
  | tuple => 40
  | chain => 0

/-- The number of operands; sequences have no bound. -/
def arity? : Operator → Option Nat
  | binary _ | assign _ => some 2
  | tuple | chain => none
  | not | negate | group | call _ => some 1
  | constant _ | read _ | write _ => some 0

/-- An operator in front of its only operand. -/
def isUnary : Operator → Bool
  | not | negate | call _ => true
  | _ => false

/-- A node without operands. -/
def isLeaf (operator : Operator) : Bool :=
  operator.arity? == some 0

/-- An operator whose chains are taken from the right. -/
def fromRight : Operator → Bool
  | assign plain => plain
  | call _ => true
  | _ => false

/-- A whole predicate or a group. -/
def isGroup : Operator → Bool
  | group => true
  | _ => false

/-- The sequences. -/
def isSequence : Operator → Bool
  | tuple | chain => true
  | _ => false

/-- Whether a node with `old` makes room for `new` among its operands. -/
def admits (old new : Operator) : Bool :=
  old.precedence < new.precedence || new.isUnary ||
    (old.precedence == new.precedence && old.fromRight && new.fromRight)

end Operator

/-- A tree of operators. The last operand of a node comes first in its list. -/
inductive Tree where
  | node (operator : Operator) (operands : List Tree)
  deriving Repr, Inhabited

namespace Tree

/-- The operator at the top. -/
def operator : Tree → Operator
  | node operator _ => operator

/-- The operands at the top, the last one first. -/
def operands : Tree → List Tree
  | node _ operands => operands

/-- A node without operands yet. -/
def leaf (operator : Operator) : Tree := node operator []

/-- The tree with one more operand. -/
def add (tree operand : Tree) : Tree :=
  node tree.operator (operand :: tree.operands)

/-- Puts `new` above the last operand `last` of a node with `old` whose other operands are
`earlier`. A leaf takes no operand, and a group takes one that is not a group only while it is
empty. -/
def rotate? (new last : Tree) (old : Operator) (earlier : List Tree) : Option Tree :=
  if new.operator.isLeaf then none
  else if old.isGroup && (!earlier.isEmpty || new.operator.isGroup) then none
  else if new.operator.isGroup && (!new.operands.isEmpty || last.operator.isGroup) then none
  else some (node old (new.add last :: earlier))

/-- Puts `new` into a tree; `top` says that the tree is the whole one and has to take it. -/
def insert (new : Tree) (top : Bool) : Tree → Option Tree
  | node old operands =>
    if !(top || old.admits new.operator) || old.isLeaf then none
    else if old.arity? == some operands.length then
      match operands with
      | last :: earlier =>
        if last.operator.admits new.operator then
          (insert new false last).map fun last => node old (last :: earlier)
        else rotate? new last old earlier
      | [] => none
    else some (node old (new :: operands))
termination_by tree => sizeOf tree

mutual

/-- The names that the tree reads or assigns to, a node before its operands. -/
def names : Tree → List String
  | node (.read name) operands | node (.write name) operands => name :: namesOf operands
  | node _ operands => namesOf operands

/-- The names in operands of which the last comes first. -/
def namesOf : List Tree → List String
  | [] => []
  | last :: earlier => namesOf earlier ++ last.names

end

end Tree

/-- The unfinished trees, the innermost first: for every open group its tree, with the sequences
inside of it above it. -/
abbrev Builder := List Tree

namespace Builder

/-- Whether a tree has more operands than its operator takes. -/
def overfull (tree : Tree) : Bool :=
  tree.operator.arity?.any (· < tree.operands.length)

/-- Ends the sequences of the innermost group. -/
def closeSequences : Tree → Builder → Option Builder
  | tree, [] => if tree.operator.isGroup && !overfull tree then some [tree] else none
  | tree, outer :: rest =>
    if tree.operator.isGroup then
      if overfull tree then none else some (tree :: outer :: rest)
    else if tree.operator.isSequence then closeSequences (outer.add tree) rest
    else if overfull tree then none
    else some (tree :: outer :: rest)

/-- Ends the trees that bind more tightly than `precedence`. -/
def collapse (precedence : Nat) : Tree → Builder → Option (Tree × Builder)
  | _, [] => none
  | tree, outer :: rest =>
    if precedence < outer.operator.precedence then collapse precedence (outer.add tree) rest
    else some (tree, outer :: rest)

/-- Two sequences of the same kind. -/
def sameSequence : Operator → Operator → Bool
  | .tuple, .tuple | .chain, .chain => true
  | _, _ => false

/-- Goes on behind a `,` or `;`. -/
def pushSequence (sequence : Operator) : Builder → Option Builder
  | [] => none
  | tree :: rest =>
    if sameSequence tree.operator sequence then some (tree.add (.leaf .group) :: rest)
    else if tree.operator.isGroup then
      some (.node sequence [.leaf .group, tree] :: .leaf .group :: rest)
    else if tree.operator.precedence < sequence.precedence then
      match tree.operands with
      | [] => none
      | last :: earlier =>
        some (.node sequence [.leaf .group, last] :: .node tree.operator earlier :: rest)
    else
      (collapse sequence.precedence tree rest).map fun (tree, rest) =>
        .node sequence [tree] :: rest

/-- Puts a node into the innermost tree, or into the last part of a sequence. -/
def pushNode (new : Tree) : Builder → Option Builder
  | [] => none
  | tree :: rest =>
    if tree.operator.isSequence then
      match tree.operands with
      | [] => none
      | last :: earlier =>
        (Tree.insert new true last).map fun last =>
          .node tree.operator (last :: earlier) :: rest
    else (Tree.insert new true tree).map (· :: rest)

/-- Ends the innermost group and puts it into the tree around it. -/
def closeGroup : Builder → Option Builder
  | tree :: outer :: rest => do
    match ← closeSequences tree (outer :: rest) with
    | group :: outside => pushNode group outside
    | [] => none
  | _ => none

/-- The node that an identifier makes before the token `next`: a place to assign to, a function
with its argument, or a name to read. -/
def identifierNode (name : String) (next : Option Token) : Operator :=
  if next.any Token.isAssignment then .write name
  else if next.any Token.startsOperand then .call name
  else .read name

/-- Takes one token; `behindOperand` says that a value or group ends right before it, and `next`
is the token behind it. -/
def step (stack : Builder) (behindOperand : Bool) (token : Token) (next : Option Token) :
    Option Builder :=
  match token with
  | .binary operator => pushNode (.leaf (.binary operator)) stack
  | .minus => pushNode (.leaf (if behindOperand then .binary .sub else .negate)) stack
  | .not => pushNode (.leaf .not) stack
  | .opening => some (.leaf .group :: stack)
  | .closing => closeGroup stack
  | .comma => pushSequence .tuple stack
  | .semicolon => pushSequence .chain stack
  | .assign plain => pushNode (.leaf (.assign plain)) stack
  | .identifier name => pushNode (.leaf (identifierNode name next)) stack
  | .value value => pushNode (.leaf (.constant value)) stack

/-- Takes the tokens one after the other. -/
def run (stack : Builder) (behindOperand : Bool) : List Token → Option Builder
  | [] => some stack
  | token :: rest => do
    run (← step stack behindOperand token rest.head?) token.endsOperand rest

/-- The finished tree, when every group is closed. -/
def finish : Builder → Option Tree
  | [] => none
  | tree :: rest => do
    match ← closeSequences tree rest with
    | [whole] => some whole
    | _ => none

end Builder

/-- The tree of a row of tokens. -/
def Tree.ofTokens (tokens : List Token) : Option Tree :=
  (Builder.run [.leaf .group] false tokens).bind Builder.finish

end BeanContainer.Predicate
