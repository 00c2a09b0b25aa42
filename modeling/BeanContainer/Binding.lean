/-
# Binding

Properties become values: the text under a key is expanded and read as the wanted type, lists
and maps are bound element by element, and records field by field.

Key definitions:
- `Store.scalarAt` and `Store.evaluate`, properties as predicates see them.
- `Store.rawValue`, the text that a target stands for.
- `Schema.bind`, the value of a type at a target, without the target's validator.
- `Store.bindTo`, `Store.bind` and `Store.bindExpression`, the value that a target, a tag or an
  argument stands for.
-/
import BeanContainer.Binding.Schema
import BeanContainer.Binding.Target
import BeanContainer.Predicate
import BeanContainer.Store.Expansion

namespace BeanContainer

namespace Store

/-- The property that an identifier of a predicate names. -/
def scalarAt (store : Store) (name : String) : Except Fault Scalar :=
  match store.get? name with
  | none => .error (.missingProperty name)
  | some raw => (store.resolve raw).map Scalar.ofRaw

/-- Whether a predicate over the properties is true. -/
def evaluate (store : Store) (predicate : String) : Except Fault Bool := do
  (← Predicate.parse predicate).holds store.scalarAt

/-- Whether a predicate over the properties is true, with `$` standing for a value. -/
def evaluateWith (store : Store) (dollar : Scalar) (predicate : String) : Except Fault Bool := do
  (← Predicate.parse predicate).holds fun name =>
    if name = "$" then .ok dollar else store.scalarAt name

/-- The expanded text of a target: the property at its key, else its default, else none. -/
def rawValue (store : Store) (target : Target) : Except Fault (Option String) :=
  match store.node? target.key with
  | some (.value text) => (store.resolve text).map some
  | some node => .error (.binding target.shown (.wrongKind target.key node.kind))
  | none =>
    match target.default with
    | some default => (store.resolve default).map some
    | none => .ok none

/-- The expanded text of a target that has to have one. -/
def requiredValue (store : Store) (target : Target) : Except Fault String := do
  match ← store.rawValue target with
  | some raw => .ok raw
  | none => .error (.missingProperty target.key)

/-- Checks a bound value against the validator of its target. -/
def validate (store : Store) (target : Target) (data : Data) : Except Fault Unit := do
  match target.validator with
  | none => .ok ()
  | some source =>
    let predicate ← Predicate.parse source
    match data.scalar? with
    | none => .error (.binding target.shown .notScalar)
    | some dollar =>
      let holds ← predicate.holds fun name =>
        if name = "$" then .ok dollar else store.scalarAt name
      if holds then .ok () else .error (.rejected source dollar.shown)

end Store

namespace ScalarType

/-- The value that a text stands for at a target, with the blanks around the text or not. -/
def read (type : ScalarType) (target : Target) (raw : String) : Except Fault Data :=
  let number {α : Type} (result : Except NumberFault α) (data : α → Data) : Except Fault Data :=
    match result with
    | .ok value => .ok (data value)
    | .error fault => .error (.binding target.shown (.unreadable raw fault.message))
  let trimmed := Text.trim raw
  match type with
  | bool => number (readBool trimmed) .bool
  | int width => number (readInt width trimmed) .int
  | float32 => number (readFloat32 trimmed) .float32
  | float64 => number (readFloat64 trimmed) .float64
  | text => .ok (.text raw)
  | duration =>
    match Duration.read trimmed with
    | .ok d => .ok (.duration d)
    | .error .carry => .error (.panic DurationFault.carry.message)
    | .error fault => .error (.binding target.shown (.unreadableDuration raw fault.message))

/-- The value of a scalar type at a target. -/
def bind (type : ScalarType) (store : Store) (target : Target) : Except Fault Data := do
  type.read target (← store.requiredValue target)

end ScalarType

namespace Schema

/-- The pieces between the commas of a text, without the blanks around them; a blank text has
none. -/
def commaPieces (raw : String) : List String :=
  match Text.trimChars raw.toList with
  | [] => []
  | cs => (cs.splitOn ',').map fun piece => String.ofList (Text.trimChars piece)

/-- The targets of the items of a list: the positions of an array, or the pieces of a text. -/
def itemTargets (store : Store) (target : Target) : Except Fault (List Target) :=
  match store.node? target.key with
  | some (.array children) =>
    .ok (children.map fun child => target.element (Segment.position child.1.text).shown none)
  | some (.map _) => .error (.binding target.shown (.wrongKind target.key .map))
  | _ => do
    let raw ← store.requiredValue target
    return (commaPieces raw).mapIdx fun index piece =>
      target.element (Segment.ofIndex index).shown (some piece)

/-- The names in a map with the targets of their values; only a blank default stands for an
empty map. -/
def entryTargets (store : Store) (target : Target) : Except Fault (List (String × Target)) :=
  match store.node? target.key with
  | some (.map children) =>
    .ok (children.map fun child => (child.1.text, target.element child.1.text none))
  | some node => .error (.binding target.shown (.wrongKind target.key node.kind))
  | none =>
    match target.default with
    | none => .error (.missingProperty target.key)
    | some default =>
      if (Text.trim default).isEmpty then .ok []
      else .error (.binding target.shown (.mapDefault default))

mutual

/-- The value of a type at a target. -/
def bind (store : Store) (target : Target) : Schema → Except Fault Data
  | scalar type => type.bind store target
  | option content =>
    if !store.has target.key && target.default.isNone then .ok .absent
    else do return .present (← content.bind store target)
  | list item => do
    let targets ← itemTargets store target
    return .list (← targets.mapM fun target => item.bind store target)
  | dict item => do
    let targets ← entryTargets store target
    return .dict (← targets.mapM fun (name, target) => do
      return (name, ← item.bind store target))
  | record fields => do return .record (← bindFields store target fields)

/-- The values of the fields of a record at a target, each checked against its validator. -/
def bindFields (store : Store) (target : Target) :
    List (Field × Schema) → Except Fault (List (String × Data))
  | [] => .ok []
  | (field, schema) :: rest => do
    let data ← match field.tag with
      | none => .ok schema.zero
      | some tag =>
        let inner := { ← target.field field.name tag with validator := field.validator }
        let data ← schema.bind store inner
        store.validate inner data
        .ok data
    return (field.name, data) :: (← bindFields store target rest)

end

end Schema

namespace Store

/-- The value of a type at a target, checked against the target's validator. -/
def bindTo (store : Store) (target : Target) (schema : Schema) : Except Fault Data := do
  let data ← schema.bind store target
  store.validate target data
  return data

/-- The value of a type at the target that a tag names. -/
def bind (store : Store) (tag : String) (schema : Schema) : Except Fault Data := do
  store.bindTo (← Target.ofTag tag) schema

/-- The value of a type that an argument stands for: the property of a placeholder that stands
alone or of `$key`, or else the text of the argument itself, expanded. -/
def bindExpression (store : Store) (expression : String) (schema : Schema) :
    Except Fault Data := do
  let cs := Text.trimChars expression.toList
  let trimmed := String.ofList cs
  let literal : Except Fault Data := do
    let text ← store.resolve trimmed
    empty.bindTo ⟨"value", some text, none, trimmed⟩ schema
  match cs with
  | '$' :: '{' :: inside =>
    match Template.splitBody 0 inside with
    | some (_, []) => store.bind trimmed schema
    | _ => literal
  | '$' :: key => store.bind ("$\x7b" ++ String.ofList key ++ "\x7d") schema
  | _ => literal

end Store
end BeanContainer
