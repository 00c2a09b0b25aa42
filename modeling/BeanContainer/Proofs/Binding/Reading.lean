/-
# Faults of reading

What expands texts, evaluates predicates and reads tags and scalars fails only because a text can't be
read, a property can't be found, or a computation broke off. The check of a bound value is the one
step of a binding that refuses what was read.

Key definitions: `Ends`, `Fault.isReading`, `ReadingFaults`.
Key theorems: `Store.reading_resolve`, `Store.reading_evaluateWith`, `ScalarType.reading_bind`.
-/
import BeanContainer.Binding

namespace BeanContainer

variable {α β : Type}

/-- The result is a good value or a bad fault. -/
def Ends (good : α → Prop) (bad : Fault → Prop) : Except Fault α → Prop
  | .ok a => good a
  | .error fault => bad fault

namespace Ends

variable {good : α → Prop} {good' : β → Prop} {bad bad' : Fault → Prop} {result : Except Fault α}

@[simp] theorem ok {a : α} : Ends good bad (.ok a) ↔ good a := Iff.rfl

@[simp] theorem error {fault : Fault} : Ends good bad (.error fault : Except Fault α) ↔ bad fault :=
  Iff.rfl

theorem bind {next : α → Except Fault β} (h : Ends good bad result)
    (hn : ∀ a, result = .ok a → good a → Ends good' bad (next a)) :
    Ends good' bad (result >>= next) := by
  cases result with
  | ok a => exact hn a rfl h
  | error fault => exact h

theorem imp {fine : α → Prop} (h : Ends good bad result) (hg : ∀ a, good a → fine a)
    (hb : ∀ fault, bad fault → bad' fault) : Ends fine bad' result := by
  cases result with
  | ok a => exact hg a h
  | error fault => exact hb fault h

theorem mapM {f : β → Except Fault α} {items : List β}
    (h : ∀ item ∈ items, Ends good bad (f item)) :
    Ends (fun values => ∀ a ∈ values, good a) bad (items.mapM f) := by
  induction items with
  | nil => exact fun _ ha => absurd ha List.not_mem_nil
  | cons item rest ih =>
    rw [List.mapM_cons]
    refine (h item List.mem_cons_self).bind fun a _ ha => ?_
    refine (ih fun b hb => h b (List.mem_cons_of_mem item hb)).bind fun more _ hmore => ?_
    exact List.forall_mem_cons.mpr ⟨ha, hmore⟩

end Ends

/-- The fault says that a text can't be read as what it should be, that a property can't be found,
or that this broke off. -/
def Fault.isReading : Fault → Bool
  | invalidKey _ | invalidTemplate _ | invalidPredicate .. | missingProperty _
  | circularReference _ | binding .. | panic _ => true
  | _ => false

theorem Fault.kind_of_isReading {fault : Fault} (h : fault.isReading = true) :
    fault.kind ≠ .validation := by
  cases fault with
  | rejected | wiring => cases h
  | _ => exact nofun

/-- The result is a fault of reading, if any. -/
abbrev ReadingFaults (result : Except Fault α) : Prop :=
  Ends (fun _ => True) (fun fault => fault.isReading = true) result

namespace ReadingFaults

variable {result : Except Fault α}

theorem bind {next : α → Except Fault β} (h : ReadingFaults result)
    (hn : ∀ a, ReadingFaults (next a)) : ReadingFaults (result >>= next) :=
  Ends.bind h fun a _ _ => hn a

theorem map (f : α → β) (h : ReadingFaults result) : ReadingFaults (result.map f) := by
  cases result with
  | ok a => exact trivial
  | error fault => exact h

end ReadingFaults

/-! ### Properties -/

theorem Predicate.reading_parse (source : String) : ReadingFaults (Predicate.parse source) := by
  unfold Predicate.parse
  split <;> simp [Fault.isReading]

theorem Predicate.reading_bindings {lookup : String → Except Fault Scalar}
    (h : ∀ name, ReadingFaults (lookup name)) (names : List String) :
    ReadingFaults (Predicate.bindings lookup names) := by
  induction names with
  | nil => exact trivial
  | cons name rest ih =>
    have hname := h name
    unfold Predicate.bindings
    split
    · exact ih.bind fun _ => trivial
    · exact ih
    · next he =>
      rw [he] at hname
      exact hname

theorem Predicate.reading_holds (predicate : Predicate) {lookup : String → Except Fault Scalar}
    (h : ∀ name, ReadingFaults (lookup name)) : ReadingFaults (predicate.holds lookup) := by
  refine (reading_bindings h _).bind fun values => ?_
  split <;> simp [Fault.isReading]

theorem Key.reading_split (key : String) : ReadingFaults (Key.split key) := by
  unfold Key.split
  split <;> simp [Fault.isReading]

theorem Target.reading_parseTag (tag : String) : ReadingFaults (Target.parseTag tag) := by
  unfold Target.parseTag
  split <;> simp [Fault.isReading]

theorem Target.reading_ofTag (tag : String) : ReadingFaults (Target.ofTag tag) :=
  (reading_parseTag tag).bind fun _ => trivial

theorem Target.reading_field (target : Target) (name tag : String) :
    ReadingFaults (target.field name tag) :=
  (reading_parseTag tag).bind fun _ => trivial

namespace Store

theorem reading_stored? (store : Store) (chain : List String) (whole key : String) :
    ReadingFaults (store.stored? chain whole key) := by
  unfold stored?
  split
  · rfl
  · have hkey := Key.reading_split key
    split
    · next hs =>
      rw [hs] at hkey
      exact hkey
    · repeat' split
      all_goals simp [Fault.isReading]

theorem reading_expand (store : Store) (chain : List String) (whole : String)
    (template : Template) (known : chain ≠ [] → ∀ key ∈ template.keys, key ∈ store.mentions) :
    ReadingFaults (store.expand chain whole template known) := by
  fun_induction Store.expand store chain whole template known with
  | case1 => exact trivial
  | case2 => rfl
  | case3 chain whole text rest _ _ ih => exact ih.bind fun _ => trivial
  | case5 chain whole key rest => rfl
  | case4 chain whole key rest _ fault hs | case7 chain whole key text default rest _ fault hs =>
    have h := store.reading_stored? chain whole key
    rw [hs] at h
    exact h
  | case6 chain whole key rest _ text hs _ _ ih ihr
  | case8 chain whole key text default rest _ hs _ ih ihr
  | case9 chain whole key text default rest _ value hs _ _ ih ihr =>
    exact ih.bind fun _ => ihr.bind fun _ => trivial

theorem reading_resolve (store : Store) (text : String) : ReadingFaults (store.resolve text) :=
  store.reading_expand [] text (.ofText text) _

theorem reading_scalarAt (store : Store) (name : String) : ReadingFaults (store.scalarAt name) := by
  unfold scalarAt
  split
  · rfl
  · exact (store.reading_resolve _).map Scalar.ofRaw

/-- A look-up with a value for the dollar sign. -/
theorem reading_dollar (store : Store) (dollar : Scalar) (name : String) :
    ReadingFaults (if name = "$" then .ok dollar else store.scalarAt name) := by
  split
  · exact trivial
  · exact store.reading_scalarAt name

theorem reading_evaluate (store : Store) (predicate : String) :
    ReadingFaults (store.evaluate predicate) :=
  (Predicate.reading_parse predicate).bind fun parsed =>
    parsed.reading_holds store.reading_scalarAt

theorem reading_evaluateWith (store : Store) (dollar : Scalar) (predicate : String) :
    ReadingFaults (store.evaluateWith dollar predicate) :=
  (Predicate.reading_parse predicate).bind fun parsed =>
    parsed.reading_holds (store.reading_dollar dollar)

theorem reading_requiredValue (store : Store) (target : Target) :
    ReadingFaults (store.requiredValue target) := by
  have hraw : ReadingFaults (store.rawValue target) := by
    unfold rawValue
    split
    · exact (store.reading_resolve _).map some
    · rfl
    · split
      · exact (store.reading_resolve _).map some
      · exact trivial
  refine hraw.bind fun raw => ?_
  split <;> simp [Fault.isReading]

end Store

/-! ### Bindings -/

theorem ScalarType.reading_read (type : ScalarType) (target : Target) (raw : String) :
    ReadingFaults (type.read target raw) := by
  cases type <;> unfold ScalarType.read <;> dsimp only <;> repeat' split
  all_goals simp [Fault.isReading]

theorem ScalarType.reading_bind (type : ScalarType) (store : Store) (target : Target) :
    ReadingFaults (type.bind store target) :=
  (store.reading_requiredValue target).bind fun raw => type.reading_read target raw

namespace Schema

theorem reading_itemTargets (store : Store) (target : Target) :
    ReadingFaults (itemTargets store target) := by
  unfold itemTargets
  split
  · exact trivial
  · rfl
  · exact (store.reading_requiredValue target).bind fun _ => trivial

theorem reading_entryTargets (store : Store) (target : Target) :
    ReadingFaults (entryTargets store target) := by
  unfold entryTargets
  repeat' split
  all_goals simp [Fault.isReading]

end Schema
end BeanContainer
