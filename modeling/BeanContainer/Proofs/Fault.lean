/-
# Plain and internal faults

Some faults say that the container lost track of a bean: that it is wired twice, that its instance
is gone, or that it was met before it was decided or wired. What expands texts, binds properties,
evaluates predicates and conditions, reads tags, selects beans and places arguments does not fail
with such a fault on any input (`Ordinary`). It says no more than that something can't be read,
found or placed, or that it broke off (`PlainFaults`), so what fails is the step itself (`Local`). In
the making of a bean, which takes panics for its own failures, that is a fault of the bean
(`Fault.IsOwn`), and a failure of it where no bean is refused (`Fault.IsFailure`).

Key definitions: `Fault.isInternal`, `Ordinary`, `Fault.isPlain`, `PlainFaults`, `Fault.isRefusal`,
`Fault.isLocal`, `Local`, `Fault.IsOwn`, `Fault.IsFailure`.
Key theorems: `Store.plain_bindTo`, `Store.plain_bindExpression`, `Condition.plain_evaluate`,
`Registry.ordinary_holds`, `Registry.plain_select`, `Callable.plain_place`.
-/
import BeanContainer.Container.Injection
import BeanContainer.Proofs.Binding.Parts

namespace BeanContainer

variable {α β ε σ : Type}

/-- The fault says that the container lost track of a bean. -/
def Fault.isInternal : Fault → Bool
  | lookup (.notWired _) | lookup (.dropped _) | lookup (.notResolved _) => true
  | usage (.noInstance _) | usage (.wiredTwice _) => true
  | conditionFailed _ cause | invalidBean _ cause | wiring _ cause => cause.isInternal
  | _ => false

/-- The result is no internal fault. -/
def Ordinary : Except Fault α → Prop
  | .ok _ => True
  | .error fault => fault.isInternal = false

theorem Ordinary.mapError {result : Except Fault α} {f : Fault → Fault}
    (hf : ∀ fault, fault.isInternal = false → (f fault).isInternal = false) (h : Ordinary result) :
    Ordinary (result.mapError f) := by
  cases result with
  | ok a => exact trivial
  | error fault => exact hf fault h

/-- The fault says that something can't be read, found or placed, or that this broke off. It is about
no bean that is being made, and about no user code but the function of a condition. -/
def Fault.isPlain : Fault → Bool
  | lookup (.missingDependency _) | lookup (.notWired _) | lookup (.dropped _)
  | lookup (.notResolved _) | lookup (.stuck _) | lookup (.undecided _) => false
  | usage (.noInstance _) | usage (.wiredTwice _) => false
  | conditionFailed .. | cycle _ | lifecycle .. | invalidBean .. | cancelled | wiring .. => false
  | _ => true

/-- The result is a plain fault, if any. -/
def PlainFaults : Except Fault α → Prop
  | .ok _ => True
  | .error fault => fault.isPlain = true

@[simp] theorem plain_ok (a : α) : PlainFaults (.ok a : Except Fault α) := trivial

@[simp] theorem plain_pure (a : α) : PlainFaults (pure a : Except Fault α) := trivial

@[simp] theorem plain_error (fault : Fault) :
    PlainFaults (.error fault : Except Fault α) ↔ fault.isPlain = true := Iff.rfl

theorem Fault.isPlain_of_isReading {fault : Fault} (h : fault.isReading = true) :
    fault.isPlain = true := by
  cases fault <;> first | rfl | cases h

theorem ReadingFaults.plain {result : Except Fault α} (h : ReadingFaults result) :
    PlainFaults result := by
  cases result with
  | ok a => exact trivial
  | error fault => exact Fault.isPlain_of_isReading h

theorem Fault.isInternal_of_isPlain {fault : Fault} (h : fault.isPlain = true) :
    fault.isInternal = false := by
  cases fault with
  | lookup reason => cases reason <;> first | rfl | cases h
  | usage reason => cases reason <;> first | rfl | cases h
  | conditionFailed | invalidBean | wiring => cases h
  | _ => rfl

namespace PlainFaults

variable {result : Except Fault α}

theorem ordinary (h : PlainFaults result) : Ordinary result := by
  cases result with
  | ok a => exact trivial
  | error fault => exact Fault.isInternal_of_isPlain h

theorem bind {next : α → Except Fault β} (h : PlainFaults result) (hn : ∀ a, PlainFaults (next a)) :
    PlainFaults (result >>= next) := by
  cases result with
  | ok a => exact hn a
  | error fault => exact h

theorem map (f : α → β) (h : PlainFaults result) : PlainFaults (result.map f) := by
  cases result with
  | ok a => exact trivial
  | error fault => exact h

theorem mapM {f : β → Except Fault α} {items : List β} (h : ∀ b, PlainFaults (f b)) :
    PlainFaults (items.mapM f) := by
  induction items with
  | nil => exact trivial
  | cons b rest ih =>
    rw [List.mapM_cons]
    exact (h b).bind fun a => ih.bind fun _ => trivial

end PlainFaults

/-- The fault refuses a bean: shutdown was requested, or the bean is under construction already. -/
def Fault.isRefusal : Fault → Bool
  | cancelled | cycle _ => true
  | _ => false

/-- The fault is one of a step in the making of a bean: it is about no bean that was registered or
decided wrongly, it refuses none, no frame is around it, and if it is of the life of a bean, it is
that of a call. -/
def Fault.isLocal : Fault → Bool
  | conditionFailed .. | invalidBean .. | wiring .. | cancelled | cycle _ => false
  | lifecycle _ stage _ => stage == .call
  | _ => true

/-- The result is a fault of the step itself, if any. -/
def Local : Except Fault α → Prop
  | .ok _ => True
  | .error fault => fault.isLocal = true

theorem Fault.isLocal_of_isPlain {fault : Fault} (h : fault.isPlain = true) :
    fault.isLocal = true := by
  cases fault with
  | conditionFailed | invalidBean | lifecycle | wiring | cancelled | cycle => cases h
  | _ => rfl

theorem PlainFaults.isLocal {result : Except Fault α} (h : PlainFaults result) : Local result := by
  cases result with
  | ok a => exact trivial
  | error fault => exact Fault.isLocal_of_isPlain h

/-- The fault arose in a step in the making of the bean `owner`: there is no other fault inside it, it
is no panic, and if it is of the life of a bean, it is of that of this one, or of a call. -/
def Fault.IsOwn (owner : String) : Fault → Prop
  | conditionFailed .. | invalidBean .. | wiring .. | panic _ => False
  | lifecycle bean stage _ => stage = .call ∨ bean = owner
  | _ => True

/-- The fault is a failure of the bean `owner`: it arose in a step in its making, and not because
another bean was refused. -/
def Fault.IsFailure (owner : String) (fault : Fault) : Prop :=
  fault.IsOwn owner ∧ fault.isRefusal = false

/-- A fold that fails does so at one of its steps. -/
theorem foldlM_error {f : σ → β → Except ε σ} {items : List β} {state : σ} {e : ε}
    (h : items.foldlM f state = .error e) : ∃ s, ∃ b ∈ items, f s b = .error e := by
  induction items generalizing state with
  | nil => cases h
  | cons b rest ih =>
    rw [List.foldlM_cons] at h
    rcases hs : f state b with e' | next
    · rw [hs] at h
      cases h
      exact ⟨state, b, List.mem_cons_self, hs⟩
    · rw [hs] at h
      obtain ⟨s, b', hm, he⟩ := ih h
      exact ⟨s, b', List.mem_cons_of_mem b hm, he⟩

/-! ### Properties -/

namespace Store

theorem plain_bindTo (store : Store) (target : Target) (schema : Schema) :
    PlainFaults (store.bindTo target schema) := by
  have h := store.ends_bindTo target schema
  rcases he : store.bindTo target schema with fault | data
  · rw [he] at h
    obtain hreading | ⟨_, _, -, _, _, _, -, -, -, -, rfl⟩ := h
    · exact Fault.isPlain_of_isReading hreading
    · rfl
  · trivial

theorem plain_bind (store : Store) (tag : String) (schema : Schema) :
    PlainFaults (store.bind tag schema) :=
  (Target.reading_ofTag tag).plain.bind fun target => store.plain_bindTo target schema

theorem plain_bindExpression (store : Store) (expression : String) (schema : Schema) :
    PlainFaults (store.bindExpression expression schema) := by
  have hliteral : ∀ trimmed, PlainFaults (do
      let text ← store.resolve trimmed
      empty.bindTo ⟨"value", some text, none, trimmed⟩ schema) :=
    fun trimmed => (store.reading_resolve trimmed).plain.bind fun _ => plain_bindTo _ _ schema
  unfold bindExpression
  dsimp only
  split
  · split
    · exact store.plain_bind _ schema
    · exact hliteral _
  · exact store.plain_bind _ schema
  · exact hliteral _

end Store

/-! ### Conditions -/

namespace Condition

theorem plain_hasValue (store : Store) (key wanted : String) :
    PlainFaults (hasValue store key wanted) := by
  have hvalue : ∀ value, PlainFaults (if predicateMark.isPrefixOf wanted.toList then
      store.evaluateWith (Scalar.ofRaw value)
        (String.ofList (wanted.toList.drop predicateMark.length))
      else pure (value == wanted)) := by
    intro value
    split
    · exact (store.reading_evaluateWith _ _).plain
    · exact trivial
  unfold hasValue
  dsimp only
  split
  · exact (store.reading_resolve _).plain.bind hvalue
  · exact hvalue ""

mutual

theorem plain_evaluate (store : Store) (lookup : Selector → BeanLookup) :
    ∀ condition : Condition, PlainFaults (condition.evaluate store lookup)
  | onProperty key having ifMissing => by
    unfold evaluate
    repeat' split
    · exact trivial
    · exact trivial
    · exact (plain_hasValue store key _).map Outcome.ofBool
  | onMissingProperty _ | onBean _ | onMissingBean _ | onSingleBean _ | always => trivial
  | onExpression predicate => (store.reading_evaluate predicate).plain.map Outcome.ofBool
  | onFunction decide => by
    unfold evaluate
    split <;> simp [Fault.isPlain]
  | all conditions => plain_evaluateAll store lookup conditions
  | any conditions => plain_evaluateAny store lookup conditions
  | not condition => by
    unfold evaluate
    refine (plain_evaluate store lookup condition).bind fun outcome => ?_
    split <;> simp

theorem plain_evaluateAll (store : Store) (lookup : Selector → BeanLookup) :
    ∀ conditions : List Condition, PlainFaults (evaluateAll store lookup conditions)
  | [] => trivial
  | condition :: rest => by
    unfold evaluateAll
    refine (plain_evaluate store lookup condition).bind fun outcome => ?_
    split
    · exact plain_evaluateAll store lookup rest
    · exact trivial

theorem plain_evaluateAny (store : Store) (lookup : Selector → BeanLookup) :
    ∀ conditions : List Condition, PlainFaults (evaluateAny store lookup conditions)
  | [] => trivial
  | condition :: rest => by
    unfold evaluateAny
    refine (plain_evaluate store lookup condition).bind fun outcome => ?_
    split
    · exact plain_evaluateAny store lookup rest
    · exact trivial

end

end Condition

/-- A decision fails with a plain fault, or as the condition waits on other beans. -/
theorem Registry.holds_error {registry : Registry} {store : Store} {condition : Condition}
    {fault : Fault} (h : registry.holds store condition = .error fault) :
    fault.isPlain = true ∨ ∃ ids, fault = .lookup (.undecided ids) := by
  have hplain := condition.plain_evaluate store (registry.lookup none)
  unfold holds Condition.holds at h
  generalize condition.evaluate store (registry.lookup none) = result at hplain h
  rcases result with cause | outcome
  · cases h
    exact .inl hplain
  · cases outcome with
    | matched | unmatched => cases h
    | pending ids =>
      cases h
      exact .inr ⟨ids, rfl⟩

theorem Registry.local_holds (registry : Registry) (store : Store) (condition : Condition) :
    Local (registry.holds store condition) := by
  rcases h : registry.holds store condition with fault | b
  · rcases holds_error h with hplain | ⟨ids, rfl⟩
    · exact Fault.isLocal_of_isPlain hplain
    · rfl
  · trivial

theorem Registry.ordinary_holds (registry : Registry) (store : Store) (condition : Condition) :
    Ordinary (registry.holds store condition) := by
  rcases h : registry.holds store condition with fault | b
  · rcases holds_error h with hplain | ⟨ids, rfl⟩
    · exact Fault.isInternal_of_isPlain hplain
    · rfl
  · trivial

/-! ### Tags, searches and places -/

theorem AutowireTag.plain_parse (tag : String) : PlainFaults (AutowireTag.parse tag) := by
  have hselectors : ∀ body, PlainFaults (AutowireTag.parseSelectors body) := by
    intro body
    unfold AutowireTag.parseSelectors
    split
    · exact trivial
    · refine PlainFaults.mapM fun part => ?_
      split <;> simp [Fault.isPlain]
  refine (hselectors _).bind fun selectors => ?_
  split <;> simp [Fault.isPlain]

theorem Registry.plain_select {registry : Registry} {type : TypeName} {tag : AutowireTag}
    {reason : LookupFault} (h : registry.select type tag = .error reason) :
    (Fault.lookup reason).isPlain = true := by
  unfold select at h
  split at h
  · cases h
  rcases hp : tag.selectors.foldlM (registry.pick type tag.optional) ⟨[], none⟩ with reason' | picks
  · rw [hp] at h
    cases h
    obtain ⟨state, selector, -, hone⟩ := foldlM_error hp
    unfold pick at hone
    repeat' split at hone
    all_goals cases hone <;> rfl
  · rw [hp] at h
    obtain ⟨picked, star⟩ := picks
    cases star <;> cases h

theorem Callable.plain_place {callable : Callable} {byType : α} {arguments : List (Placing α)}
    {reason : UsageFault} (h : callable.place byType arguments = .error reason) :
    (Fault.usage reason).isPlain = true := by
  unfold place at h
  split at h
  · cases h
    rfl
  dsimp only at h
  rcases hd : arguments.foldlM (callable.placeOne (Placing.named arguments))
    ⟨List.replicate callable.fixed none, 0, []⟩ with reason' | draft
  · rw [hd] at h
    cases h
    obtain ⟨state, argument, -, hone⟩ := foldlM_error hd
    unfold placeOne at hone
    repeat' split at hone
    all_goals cases hone <;> rfl
  · rw [hd] at h
    cases h

end BeanContainer
