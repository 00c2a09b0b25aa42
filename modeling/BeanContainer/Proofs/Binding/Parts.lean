/-
# The parts of a binding

A validator belongs to a target, and the parts of a value are bound at targets of their own: the
content of an optional value, the items of a list, the entries of a map, the fields of a record. What
comes out of a binding passes the validators of all its parts, and what fails does so in reading, or
because the validator of a part refuses it.

Key definitions: `Store.Passes`, `Store.Refuses`, `Store.Validated`, `Store.Part`, `Store.Faulted`.
Key theorems: `Schema.bindFields_cons`, `Store.ends_validate`, `Schema.ends_bind`,
`Store.ends_bindTo`.
-/
import BeanContainer.Proofs.Binding.Reading

namespace BeanContainer

namespace Store

/-! ### Validators -/

/-- The validator, if there is one, is true of the value: `$` stands for the value and other
identifiers for the properties. -/
def Passes (store : Store) (validator : Option String) (data : Data) : Prop :=
  ∀ source ∈ validator, ∃ dollar, data.scalar? = some dollar ∧
    store.evaluateWith dollar source = .ok true

/-- The validator of the target is false of the value that is bound there, and the fault says so with
the text of the value. -/
def Refuses (store : Store) (target : Target) (schema : Schema) (fault : Fault) : Prop :=
  ∃ source data dollar, target.validator = some source ∧ schema.bind store target = .ok data ∧
    data.scalar? = some dollar ∧ store.evaluateWith dollar source = .ok false ∧
    fault = .rejected source dollar.shown

mutual

/-- The parts of the value, at any depth, pass the validators of their fields. A field without a tag
is not bound. -/
inductive Validated (store : Store) : Schema → Data → Prop
  | scalar {type : ScalarType} {data : Data} : Validated store (.scalar type) data
  | absent {content : Schema} : Validated store (.option content) .absent
  | present {content : Schema} {data : Data} : Validated store content data →
    Validated store (.option content) (.present data)
  | list {item : Schema} {items : List Data} : (∀ data ∈ items, Validated store item data) →
    Validated store (.list item) (.list items)
  | dict {item : Schema} {entries : List (String × Data)} :
    (∀ entry ∈ entries, Validated store item entry.2) →
    Validated store (.dict item) (.dict entries)
  | record {fields : List (Field × Schema)} {values : List (String × Data)} :
    FieldsValidated store fields values → Validated store (.record fields) (.record values)

/-- The values of the fields, in their order, pass their validators, and so do their parts. -/
inductive FieldsValidated (store : Store) : List (Field × Schema) → List (String × Data) → Prop
  | nil : FieldsValidated store [] []
  | bound {name tag : String} {validator : Option String} {schema : Schema} {data : Data}
    {fields : List (Field × Schema)} {values : List (String × Data)} :
    store.Passes validator data → Validated store schema data →
    FieldsValidated store fields values →
    FieldsValidated store ((⟨name, some tag, validator⟩, schema) :: fields) ((name, data) :: values)
  | zero {name : String} {validator : Option String} {schema : Schema}
    {fields : List (Field × Schema)} {values : List (String × Data)} :
    FieldsValidated store fields values →
    FieldsValidated store ((⟨name, none, validator⟩, schema) :: fields)
      ((name, schema.zero) :: values)

end

mutual

/-- A binding of the first type at the first target consists of or contains one of the second type at
the second target, whose validator is applied to it. -/
inductive Part (store : Store) : Target → Schema → Target → Schema → Prop
  | whole {target : Target} {schema : Schema} : Part store target schema target schema
  | inside {target inner : Target} {schema part : Schema} :
    Inside store target schema inner part → Part store target schema inner part

/-- A binding contains another one: that of the content of an optional value, of an item, of an entry
or of a field, or one inside of these. -/
inductive Inside (store : Store) : Target → Schema → Target → Schema → Prop
  | content {target inner : Target} {content part : Schema} :
    Inside store target content inner part → Inside store target (.option content) inner part
  | item {target element inner : Target} {targets : List Target} {item part : Schema} :
    Schema.itemTargets store target = .ok targets → element ∈ targets →
    Part store element item inner part → Inside store target (.list item) inner part
  | entry {target element inner : Target} {targets : List (String × Target)} {name : String}
    {item part : Schema} :
    Schema.entryTargets store target = .ok targets → (name, element) ∈ targets →
    Part store element item inner part → Inside store target (.dict item) inner part
  | field {target base inner : Target} {fields : List (Field × Schema)} {name tag : String}
    {validator : Option String} {schema part : Schema} :
    (⟨name, some tag, validator⟩, schema) ∈ fields → target.field name tag = .ok base →
    Part store { base with validator } schema inner part →
    Inside store target (.record fields) inner part

end

/-- The fault is one of reading, or the validator of one of these bindings refuses what is bound. -/
def Faulted (store : Store) (parts : Target → Schema → Prop) (fault : Fault) : Prop :=
  fault.isReading = true ∨ ∃ inner part, parts inner part ∧ store.Refuses inner part fault

end Store

variable {store : Store} {target : Target} {schema : Schema}

/-- The parts of a part are parts of the whole. -/
theorem Ends.among {α : Type} {good : α → Prop} {parts more : Target → Schema → Prop}
    {result : Except Fault α} (h : Ends good (store.Faulted parts) result)
    (hp : ∀ inner part, parts inner part → more inner part) :
    Ends good (store.Faulted more) result := by
  refine h.imp (fun _ => id) fun fault hfault => hfault.imp_right ?_
  rintro ⟨inner, part, hpart, hrefuses⟩
  exact ⟨inner, part, hp inner part hpart, hrefuses⟩

theorem ReadingFaults.faulted {α : Type} {parts : Target → Schema → Prop}
    {result : Except Fault α} (h : ReadingFaults result) :
    Ends (fun _ => True) (store.Faulted parts) result :=
  h.imp (fun _ => id) fun _ => .inl

/-! ### One validator -/

namespace Store

theorem validate_of_scalar {data : Data} {source : String} {dollar : Scalar}
    (hv : target.validator = some source) (hd : data.scalar? = some dollar) :
    store.validate target data = (do
      let holds ← store.evaluateWith dollar source
      if holds then .ok () else .error (.rejected source dollar.shown)) := by
  unfold validate evaluateWith
  rw [hv, bind_assoc]
  simp only [hd]

/-- What a validator does not fail on passes it. -/
theorem ends_validate {data : Data} (h : schema.bind store target = .ok data) :
    Ends (fun _ => store.Passes target.validator data) (store.Faulted (Part store target schema))
      (store.validate target data) := by
  cases hv : target.validator with
  | none =>
    unfold validate
    rw [hv]
    exact fun _ hs => nomatch hs
  | some source =>
    cases hd : data.scalar? with
    | none =>
      unfold validate
      rw [hv]
      refine (Predicate.reading_parse source).faulted.bind fun predicate _ _ => ?_
      rw [hd]
      exact .inl rfl
    | some dollar =>
      rw [validate_of_scalar hv hd]
      refine (store.reading_evaluateWith dollar source).faulted.bind
        fun holds hholds _ => ?_
      cases holds with
      | true =>
        intro source' hs
        cases hs
        exact ⟨dollar, hd, hholds⟩
      | false =>
        exact .inr ⟨target, schema, .whole, source, data, dollar, hv, h, hd, hholds, rfl⟩

/-- A value that is bound and checked passes the validator of its target, if its parts pass theirs. -/
theorem ends_bindTo_of_bind
    (h : Ends (Validated store schema) (store.Faulted (Inside store target schema))
      (schema.bind store target)) :
    Ends (fun data => store.Passes target.validator data ∧ Validated store schema data)
      (store.Faulted (Part store target schema)) (store.bindTo target schema) := by
  unfold bindTo
  refine (h.among fun _ _ => .inside).bind fun data hdata hvalidated => ?_
  exact (ends_validate hdata).bind fun _ _ hpasses => ⟨hpasses, hvalidated⟩

end Store

/-! ### All validators -/

namespace Schema

open Store

/-- A field with a tag is bound at its own target, with its own validator. -/
theorem bindFields_cons (store : Store) (target : Target) (name tag : String)
    (validator : Option String) (schema : Schema) (rest : List (Field × Schema)) :
    bindFields store target ((⟨name, some tag, validator⟩, schema) :: rest) = do
      let inner ← target.field name tag
      let data ← store.bindTo { inner with validator } schema
      return (name, data) :: (← bindFields store target rest) := by
  have hok : ∀ data : Data, (Except.ok data : Except Fault Data) = pure data := fun _ => rfl
  rw [bindFields]
  simp only [Store.bindTo, hok, bind_assoc, pure_bind]

theorem inside_more {store : Store} {target inner : Target} {field : Field × Schema}
    {fields : List (Field × Schema)} {part : Schema}
    (h : Inside store target (.record fields) inner part) :
    Inside store target (.record (field :: fields)) inner part := by
  cases h with
  | field hmem htag hpart => exact .field (List.mem_cons_of_mem field hmem) htag hpart

mutual

/-- The parts of a value that is bound pass their validators. -/
theorem ends_bind (store : Store) (target : Target) : ∀ schema : Schema,
    Ends (Validated store schema) (store.Faulted (Inside store target schema))
      (schema.bind store target)
  | .scalar type => by
    unfold bind
    exact (type.reading_bind store target).faulted.imp (fun _ _ => .scalar) fun _ => id
  | .option content => by
    unfold bind
    split
    · exact .absent
    · exact ((ends_bind store target content).among fun _ _ => .content).bind
        fun data _ hdata => .present hdata
  | .list item => by
    unfold bind
    refine (reading_itemTargets store target).faulted.bind fun targets ht _ => ?_
    refine (Ends.mapM fun element hmem => ?_).bind fun datas _ hdatas => .list hdatas
    exact (ends_bind store element item).among fun _ _ hin => .item ht hmem (.inside hin)
  | .dict item => by
    unfold bind
    refine (reading_entryTargets store target).faulted.bind fun targets ht _ => ?_
    refine (Ends.mapM fun (name, element) hmem => ?_).bind fun entries _ hentries => .dict hentries
    exact ((ends_bind store element item).among fun _ _ hin =>
      .entry ht hmem (.inside hin)).bind fun data _ hdata => hdata
  | .record fields => by
    unfold bind
    exact (ends_bindFields store target fields).bind fun values _ hvalues => .record hvalues

/-- The values of fields that are bound pass their validators, and so do their parts. -/
theorem ends_bindFields (store : Store) (target : Target) : ∀ fields : List (Field × Schema),
    Ends (FieldsValidated store fields) (store.Faulted (Inside store target (.record fields)))
      (bindFields store target fields)
  | [] => .nil
  | (⟨name, none, validator⟩, schema) :: rest => by
    unfold bindFields
    exact ((ends_bindFields store target rest).among fun _ _ => inside_more).bind
      fun values _ hvalues => .zero hvalues
  | (⟨name, some tag, validator⟩, schema) :: rest => by
    rw [bindFields_cons]
    refine (target.reading_field name tag).faulted.bind fun inner hfield _ => ?_
    refine ((ends_bindTo_of_bind (ends_bind store { inner with validator } schema)).among
      fun _ _ hpart => .field List.mem_cons_self hfield hpart).bind fun data _ hdata => ?_
    exact ((ends_bindFields store target rest).among fun _ _ => inside_more).bind
      fun values _ hvalues => .bound hdata.1 hdata.2 hvalues

end

end Schema

namespace Store

theorem ends_bindTo (store : Store) (target : Target) (schema : Schema) :
    Ends (fun data => store.Passes target.validator data ∧ Validated store schema data)
      (store.Faulted (Part store target schema)) (store.bindTo target schema) :=
  ends_bindTo_of_bind (schema.ends_bind store target)

end Store
end BeanContainer
