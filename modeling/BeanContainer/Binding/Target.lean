/-
# Binding targets

Where a binding reads from: a key, a default for when there is no property, and a validator.
Targets are written as tags of the form `${key}` or `${key:=default}`.

Key definitions:
- `Target`, and `Target.ofTag`, the reader of tags.
- `Target.field` and `Target.element`, the targets of the parts of a composite, whose keys are
  relative to its own.
- `Target.shown`, the name of a target in messages.
-/
import BeanContainer.Key
import BeanContainer.Template

namespace BeanContainer

/-- Where a binding reads from. -/
structure Target where
  key : String
  default : Option String
  validator : Option String
  /-- The name in messages; the key if it is empty. -/
  path : String
  deriving DecidableEq, Repr, Inhabited

namespace Target

/-- The text inside a tag: what is between a leading `${` and the last `}`. -/
def tagBody? (cs : List Char) : Option (List Char) :=
  match Text.trimChars cs with
  | '$' :: '{' :: body => if body.getLast? = some '}' then some body.dropLast else none
  | _ => none

/-- The key and the default of a tag. -/
def parseTag (tag : String) : Except Fault (String × Option String) :=
  match tagBody? tag.toList with
  | none => .error (.invalidTemplate tag)
  | some body =>
    let (key, default) := Template.splitDefault 0 body
    .ok (String.ofList (Text.trimChars key), default.map String.ofList)

/-- The target that a tag names. -/
def ofTag (tag : String) : Except Fault Target := do
  let (key, default) ← parseTag tag
  return ⟨key, default, none, ""⟩

/-- The name of the target in messages. -/
def shown (target : Target) : String :=
  if target.path.isEmpty then target.key else target.path

/-- The target of the field `name` with this tag; a tag without a key stands for the target of
the record itself. -/
def field (target : Target) (name tag : String) : Except Fault Target := do
  let (key, default) ← parseTag tag
  return { key := Key.under target.key key
           default
           validator := none
           path := if target.path.isEmpty then name else target.path ++ "." ++ name }

/-- The target of an element, whose key relative to the composite is `sub`. -/
def element (target : Target) (sub : String) (default : Option String) : Target :=
  { key := Key.under target.key sub
    default
    validator := none
    path := Key.under target.shown sub }

end Target
end BeanContainer
