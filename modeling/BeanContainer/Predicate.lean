/-
# Predicates

Conditions written as texts, such as `$ > 0 && mode == "prod"`. An identifier is the key of a
property, and `$` the value that is being checked.

Key definitions:
- `Predicate`, a source text with its tree, and `Predicate.parse`.
- `Predicate.bindings`, the names of the tree with their values; a name without a value is left
  out, any other fault of a look-up counts at once.
- `Predicate.holds`, the truth value of a predicate.
-/
import BeanContainer.Predicate.Evaluation
import BeanContainer.Fault

namespace BeanContainer

/-- A condition written as a text. -/
structure Predicate where
  source : String
  tree : Predicate.Tree
  deriving Repr, Inhabited

namespace Predicate

/-- The predicate that a text stands for. -/
def parse (source : String) : Except Fault Predicate :=
  match (Token.read source).bind Tree.ofTokens with
  | some tree => .ok ⟨source, tree⟩
  | none => .error (.invalidPredicate source "the text is no predicate")

/-- The values of the names that have one. -/
def bindings (lookup : String → Except Fault Scalar) :
    List String → Except Fault (List (String × Value))
  | [] => .ok []
  | name :: rest =>
    match lookup name with
    | .ok value => do return (name, Value.ofScalar value) :: (← bindings lookup rest)
    | .error (.missingProperty _) => bindings lookup rest
    | .error fault => .error fault

/-- Whether the predicate is true. All its names are looked up first; one without a value is a
fault only when the evaluation comes to it. -/
def holds (predicate : Predicate) (lookup : String → Except Fault Scalar) :
    Except Fault Bool := do
  let values ← bindings lookup predicate.tree.names
  match predicate.tree.eval (values.lookup ·) with
  | .ok (.bool b) => .ok b
  | .ok _ => .error (.invalidPredicate predicate.source "a truth value was expected")
  | .error (.missing name) => .error (.missingProperty name)
  | .error (.failed reason) => .error (.invalidPredicate predicate.source reason)
  | .error (.panicked reason) => .error (.panic reason)

end Predicate
end BeanContainer
