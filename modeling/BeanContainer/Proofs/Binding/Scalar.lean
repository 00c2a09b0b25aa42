/-
# Scalars at a target

The text that a target stands for, by what stands at its key, and what a scalar type makes of it: the
name of the target in messages is all that it takes from the target besides the text.

Key definitions: `Target.Source`, `Target.Gives`, `Schema.IsScalar`.
Key theorems: `Store.bindTo_unguarded`, `Store.bindTo_text`, `ScalarType.read_congr`, `Schema.IsScalar.bind_congr`.
-/
import BeanContainer.Binding
import BeanContainer.Proofs.Store.Entries

namespace BeanContainer
namespace Store

variable {store : Store} {text : String}

/-! ### The text of a target -/

theorem requiredValue_of_value (target : Target)
    (h : store.node? target.key = some (.value text)) :
    store.requiredValue target = store.resolve text := by
  unfold requiredValue rawValue
  rw [h]
  dsimp only
  rcases store.resolve text with fault | expanded <;> rfl

theorem requiredValue_of_default (target : Target)
    (h : store.node? target.key = none) (hd : target.default = some text) :
    store.requiredValue target = store.resolve text := by
  unfold requiredValue rawValue
  rw [h, hd]
  dsimp only
  rcases store.resolve text with fault | expanded <;> rfl

theorem requiredValue_of_none (target : Target) (h : store.node? target.key = none)
    (hd : target.default = none) :
    store.requiredValue target = .error (.missingProperty target.key) := by
  unfold requiredValue rawValue
  rw [h, hd]
  rfl

theorem requiredValue_of_branch (target : Target) {node : Node}
    (h : store.node? target.key = some node) (hk : node.kind ≠ .value) :
    store.requiredValue target =
      .error (.binding target.shown (.wrongKind target.key node.kind)) := by
  unfold requiredValue rawValue
  rw [h]
  cases node with
  | value => exact absurd rfl hk
  | map | array => rfl

/-! ### Targets without validators -/

theorem map_eq_ok_iff {α β : Type} {f : α → β} (hf : f.Injective) {result : Except Fault α} {a : α} :
    result.map f = .ok (f a) ↔ result = .ok a := by
  rcases result with fault | b
  · exact ⟨nofun, nofun⟩
  · simp [Except.map, hf.eq_iff]

theorem bindTo_unguarded {target : Target} (hv : target.validator = none) (schema : Schema) :
    store.bindTo target schema = schema.bind store target := by
  unfold bindTo validate
  rw [hv]
  rcases schema.bind store target with fault | data <;> rfl

/-- A text is bound to the text that its target stands for. -/
theorem bindTo_text {target : Target} (hv : target.validator = none) :
    store.bindTo target (.scalar .text) = (store.requiredValue target).map Data.text := by
  rw [bindTo_unguarded hv, Schema.bind, ScalarType.bind]
  rcases store.requiredValue target with fault | raw <;> rfl

end Store

/-! ### Scalars -/

/-- Of a target a scalar type needs no more than the name. -/
theorem ScalarType.read_congr (type : ScalarType) {target target' : Target}
    (h : target.shown = target'.shown) (raw : String) :
    type.read target raw = type.read target' raw := by
  unfold read
  rw [h]

/-- The text that a target stands for, before it is expanded: one that is stored at its key, or its
default where nothing is. -/
inductive Target.Source (store : Store) (target : Target) (text : String) : Prop
  | stored (h : store.node? target.key = some (.value text))
  | default (h : store.node? target.key = none) (hd : target.default = some text)

/-- There is a text at the target, and it is expanded to `raw`. -/
structure Target.Gives (store : Store) (target : Target) (raw : String) : Prop where
  value : store.requiredValue target = .ok raw
  present : (!store.has target.key && target.default.isNone) = false

namespace Target.Source

variable {store : Store} {target : Target} {text raw : String}

theorem requiredValue (h : target.Source store text) :
    store.requiredValue target = store.resolve text := by
  cases h with
  | stored h => exact Store.requiredValue_of_value target h
  | default h hd => exact Store.requiredValue_of_default target h hd

theorem gives (h : target.Source store text) (hr : store.resolve text = .ok raw) :
    target.Gives store raw where
  value := h.requiredValue.trans hr
  present := by
    cases h with
    | stored h => simp [Store.has, h]
    | default h hd => simp [hd]

end Target.Source

/-- A scalar type, or such a type made optional. -/
inductive Schema.IsScalar : Schema → Prop
  | scalar (type : ScalarType) : IsScalar (scalar type)
  | option {content : Schema} : IsScalar content → IsScalar (option content)

/-- Targets of one name that give the same text are bound alike. -/
theorem Schema.IsScalar.bind_congr {schema : Schema} (hs : schema.IsScalar) {store store' : Store}
    {target target' : Target} {raw : String} (h : target.Gives store raw)
    (h' : target'.Gives store' raw) (hn : target.shown = target'.shown) :
    schema.bind store target = schema.bind store' target' := by
  induction hs with
  | scalar type =>
    rw [Schema.bind, Schema.bind, ScalarType.bind, ScalarType.bind, h.value, h'.value]
    exact type.read_congr hn raw
  | option _ ih =>
    rw [Schema.bind, Schema.bind, h.present, h'.present, ih]

end BeanContainer
