/-
# Containers while beans are being made

What holds between two steps of the making, for the stack of beans under construction: how far each
bean has come, which of its code was called, and where it stands among the beans that were entered
and in the order. `Session.push` puts a bean on the stack, `Session.change` follows the bean on top,
and `Session.finish` takes it off once it is initialized.

Key definitions: `Container.calls`, `Container.entries`, `Container.Changes`, `Registry.Ready`,
`Session.Fits`, `Session`, `Container.Complete`, `Container.Grows`.
Key theorems: `Container.Changes.extends_finished`, `Session.present_iff`, `Session.push`,
`Session.change`, `Session.finish`.
-/
import BeanContainer.Proofs.Container.Agreement
import BeanContainer.Proofs.Container.Course
import BeanContainer.Proofs.Container.Filling

namespace BeanContainer
namespace Container

variable {c d e : Container} {i j : ℕ} {bean bean' : Bean}

/-! ### Calls of the code of beans -/

/-- The step of an event that is a call of the bean at `i` for a stage. -/
def callStep (stage : Stage) (i : ℕ) : Event → Option ℕ
  | .called stage' j step => if stage' = stage ∧ j = i then some step else none
  | _ => none

/-- The steps for which the code of the bean at `i` was called for a stage, in order. -/
def calls (c : Container) (stage : Stage) (i : ℕ) : List ℕ :=
  c.events.filterMap (callStep stage i)

/-- The calls of one bean are among the calls of all. -/
theorem calls_eq (c : Container) (stage : Stage) (i : ℕ) :
    c.calls stage i =
      (c.trace stage).filterMap fun call => if call.1 = i then some call.2 else none := by
  unfold calls trace
  rw [List.filterMap_filterMap]
  congr 1
  funext event
  cases event with
  | called stage' j step => by_cases hs : stage' = stage <;> simp [callStep, calledStep, hs]
  | _ => rfl

theorem calls_note (c : Container) (event : Event) (stage : Stage) (i : ℕ) :
    (c.note event).calls stage i = c.calls stage i ++ (callStep stage i event).toList := by
  unfold calls note
  rw [List.filterMap_append, List.filterMap_cons]
  cases callStep stage i event <;> rfl

/-- The bean whose making begins with an event. -/
def enteredBean : Event → Option ℕ
  | .entered i => some i
  | _ => none

theorem mem_enteredBeans {log : List Event} {i : ℕ} :
    i ∈ log.filterMap enteredBean ↔ .entered i ∈ log := by
  have hbean : ∀ event, enteredBean event = some i ↔ event = .entered i := by
    intro event
    cases event <;> simp [enteredBean]
  simp only [List.mem_filterMap, hbean, exists_eq_right]

/-- The beans whose making began, in order. -/
def entries (c : Container) : List ℕ := c.events.filterMap enteredBean

theorem entries_note (c : Container) (event : Event) :
    (c.note event).entries = c.entries ++ (enteredBean event).toList := by
  unfold entries note
  rw [List.filterMap_append, List.filterMap_cons]
  cases enteredBean event <;> rfl

theorem Aside.calls (h : c.Aside d) (stage : Stage) (i : ℕ) :
    d.calls stage i = c.calls stage i := by
  refine h.filterMap_events fun event hn => ?_
  cases event with
  | called => cases hn
  | _ => rfl

theorem Aside.entries (h : c.Aside d) : d.entries = c.entries := by
  refine h.filterMap_events fun event hn => ?_
  cases event with
  | entered => cases hn
  | _ => rfl

/-! ### Changes of one bean -/

theorem bean?_modifyBean (c : Container) (i : ℕ) (change : Bean → Bean) (j : ℕ) :
    (c.modifyBean i change).bean? j = if i = j then (c.bean? j).map change else c.bean? j := by
  unfold bean? modifyBean Registry.modify
  rw [List.getElem?_modify]
  split <;> simp

/-- From `c` to `d` only the bean at `i` changed, to `bean`; no bean was entered or initialized, and
the code of none was called but its own, for the steps `new`. -/
structure Changes (i : ℕ) (bean : Bean) (new : Stage → List ℕ) (c d : Container) : Prop where
  store : d.store = c.store
  phase : d.phase = c.phase
  order : d.order = c.order
  entries : d.entries = c.entries
  here : d.bean? i = some bean
  others : ∀ j, j ≠ i → d.bean? j = c.bean? j
  trace : ∀ stage, d.trace stage = c.trace stage ++ (new stage).map (i, ·)
  initializations : d.initializations = c.initializations

/-- No call. -/
def noCalls : Stage → List ℕ := fun _ => []

theorem Changes.calls {new : Stage → List ℕ} (h : Changes i bean new c d) (stage : Stage) (j : ℕ) :
    d.calls stage j = c.calls stage j ++ if j = i then new stage else [] := by
  rw [calls_eq, calls_eq, h.trace, List.filterMap_append, List.filterMap_map]
  by_cases hj : j = i
  · simp [hj]
  · simp [hj, Ne.symm hj]

theorem Aside.changes (h : c.Aside d) (hb : c.bean? i = some bean) :
    Changes i bean noCalls c d where
  store := h.store
  phase := h.phase
  order := by rw [h.same]
  entries := h.entries
  here := (h.bean? i).trans hb
  others j _ := h.bean? j
  trace stage := (h.trace stage).trans (List.append_nil _).symm
  initializations := h.initializations

theorem changes_modifyBean (change : Bean → Bean) (hb : c.bean? i = some bean) :
    Changes i (change bean) noCalls c (c.modifyBean i change) where
  store := rfl
  phase := rfl
  order := rfl
  entries := rfl
  here := by rw [bean?_modifyBean, if_pos rfl, hb, Option.map_some]
  others j hj := by rw [bean?_modifyBean, if_neg (Ne.symm hj)]
  trace _ := (List.append_nil _).symm
  initializations := rfl

theorem changes_note_called (stage : Stage) (step : ℕ) (hb : c.bean? i = some bean) :
    Changes i bean (fun s => if s = stage then [step] else []) c
      (c.note (.called stage i step)) where
  store := rfl
  phase := rfl
  order := rfl
  entries := by
    rw [entries_note]
    exact List.append_nil _
  here := hb
  others _ _ := rfl
  trace s := by
    rw [trace_note]
    by_cases hs : s = stage
    · simp [calledStep, hs]
    · simp [calledStep, hs, Ne.symm hs]
  initializations := by
    rw [initializations_note]
    exact List.append_nil _

theorem Changes.trans {new new' : Stage → List ℕ} (h : Changes i bean new c d)
    (h' : Changes i bean' new' d e) : Changes i bean' (fun s => new s ++ new' s) c e where
  store := h'.store.trans h.store
  phase := h'.phase.trans h.phase
  order := h'.order.trans h.order
  entries := h'.entries.trans h.entries
  here := h'.here
  others j hj := (h'.others j hj).trans (h.others j hj)
  trace stage := by rw [h'.trace, h.trace, List.append_assoc, List.map_append]
  initializations := h'.initializations.trans h.initializations

/-! ### Containers that come later -/

/-- From `c` to `d` the beans of `more` went on the stack and others were added to the order, and
these are the beans that were entered. Those on the stack before stayed as they were. -/
structure Grows (stack more : List ℕ) (c d : Container) : Prop where
  steps : ∃ entered made, d.entries = c.entries ++ entered ∧ d.order = c.order ++ made ∧
    entered.Perm (more ++ made)
  stack : ∀ i ∈ stack, d.bean? i = c.bean? i

variable {stack more more' : List ℕ}

theorem Grows.refl (stack : List ℕ) (c : Container) : Grows stack [] c c :=
  ⟨⟨[], [], (List.append_nil _).symm, (List.append_nil _).symm, .nil⟩, fun _ _ => rfl⟩

theorem Grows.trans (h : Grows stack more c d) (h' : Grows stack more' d e) :
    Grows stack (more ++ more') c e := by
  obtain ⟨entered, made, he, ho, hp⟩ := h.steps
  obtain ⟨entered', made', he', ho', hp'⟩ := h'.steps
  refine ⟨⟨entered ++ entered', made ++ made', ?_, ?_, ?_⟩, fun i hi =>
    (h'.stack i hi).trans (h.stack i hi)⟩
  · rw [he', he, List.append_assoc]
  · rw [ho', ho, List.append_assoc]
  · refine List.perm_iff_count.mpr fun k => ?_
    have hk := hp.count_eq k
    have hk' := hp'.count_eq k
    simp only [List.count_append] at hk hk' ⊢
    omega

theorem Grows.order (h : Grows stack more c d) : c.order <+: d.order := by
  obtain ⟨entered, made, -, ho, -⟩ := h.steps
  exact ho ▸ List.prefix_append _ _

theorem Grows.entries (h : Grows stack more c d) : c.entries <+: d.entries := by
  obtain ⟨entered, made, he, -, -⟩ := h.steps
  exact he ▸ List.prefix_append _ _

/-- If all that was entered is in the order at first, it is there or on the stack later. -/
theorem Grows.perm (h : Grows stack more c d) (hp : c.entries.Perm c.order) :
    d.entries.Perm (more ++ d.order) := by
  obtain ⟨entered, made, he, ho, hsteps⟩ := h.steps
  refine List.perm_iff_count.mpr fun k => ?_
  have hk := hp.count_eq k
  have hk' := hsteps.count_eq k
  simp only [he, ho, List.count_append] at hk hk' ⊢
  omega

/-- Where nothing is entered and initialized, it is enough that the beans on the stack stay. -/
theorem Grows.of_eq (he : d.entries = c.entries) (ho : d.order = c.order)
    (hs : ∀ i ∈ stack, d.bean? i = c.bean? i) : Grows stack [] c d :=
  ⟨⟨[], [], by rw [he, List.append_nil], by rw [ho, List.append_nil], .nil⟩, hs⟩

theorem Aside.grows (h : c.Aside d) (stack : List ℕ) : Grows stack [] c d :=
  .of_eq h.entries (by rw [h.same]) fun i _ => h.bean? i

/-- A change of a bean that is not on the stack. -/
theorem Changes.grows {new : Stage → List ℕ} (h : Changes i bean new c d) (hi : i ∉ stack) :
    Grows stack [] c d :=
  .of_eq h.entries h.order fun j hj => h.others j fun he => hi (he ▸ hj)

/-- A bean is entered. -/
theorem grows_entered (stack : List ℕ) (c : Container) (i : ℕ) :
    Grows stack [i] c (c.note (.entered i)) :=
  ⟨⟨[i], [], entries_note c _, (List.append_nil _).symm, .refl _⟩, fun _ _ => rfl⟩

/-- The container in which the making of the bean at `i` came to its end. -/
def finished (c : Container) (i : ℕ) : Container :=
  { c.note (.initialized i) with order := c.order ++ [i] }

@[simp] theorem order_finished (c : Container) (i : ℕ) : (c.finished i).order = c.order ++ [i] :=
  rfl

@[simp] theorem bean?_finished (c : Container) (i j : ℕ) : (c.finished i).bean? j = c.bean? j :=
  rfl

@[simp] theorem entries_finished (c : Container) (i : ℕ) : (c.finished i).entries = c.entries :=
  (entries_note c (.initialized i)).trans (List.append_nil _)

@[simp] theorem calls_finished (c : Container) (i : ℕ) (stage : Stage) (j : ℕ) :
    (c.finished i).calls stage j = c.calls stage j :=
  (calls_note c (.initialized i) stage j).trans (List.append_nil _)

theorem trace_finished (c : Container) (i : ℕ) (stage : Stage) :
    (c.finished i).trace stage = c.trace stage :=
  (trace_note c (.initialized i) stage).trans (List.append_nil _)

theorem initializations_finished (c : Container) (i : ℕ) :
    (c.finished i).initializations = c.initializations ++ [i] :=
  initializations_note c (.initialized i)

/-- The bean that went on the stack is added to the order. -/
theorem Grows.finish (h : Grows stack [i] c d) : Grows stack [] c (d.finished i) := by
  obtain ⟨entered, made, he, ho, hp⟩ := h.steps
  refine ⟨⟨entered, made ++ [i], ?_, ?_, hp.trans List.perm_append_comm⟩, h.stack⟩
  · rw [entries_finished, he]
  · rw [order_finished, ho, List.append_assoc]

/-- A bean whose component is new is initialized: its fields refer to what is there, and its init
hooks were called. -/
theorem Changes.extends_finished {last : Registry} {new : Stage → List ℕ} {component : Component}
    (h : Changes i bean' new c d) (hb : c.bean? i = some bean) (hn : bean.component = none)
    (hcomponent : bean'.component = some component)
    (hf : ∀ field ∈ component.fields, field.2.Refers last c)
    (hinit : (new .init).map (i, ·) = last.hookSteps .init i) (hdestroy : new .destroy = []) :
    c.Extends last (d.finished i) := by
  have hbefore : c.component? i = none := (component?_of_bean hb).trans hn
  have hafter : (d.finished i).component? i = some component :=
    (component?_of_bean ((bean?_finished d i i).trans h.here)).trans hcomponent
  have hothers : ∀ j, j ≠ i → (d.finished i).component? j = c.component? j := fun j hj =>
    component?_congr ((bean?_finished d i j).trans (h.others j hj))
  have hstays : ∀ j old, c.component? j = some old → (d.finished i).component? j = some old := by
    intro j old hj
    rw [hothers j ?_]
    · exact hj
    · rintro rfl
      rw [hbefore] at hj
      cases hj
  refine ⟨hstays, fun j old hj => ?_, [i], ?_, ?_, ?_, ?_⟩
  · by_cases hji : j = i
    · subst hji
      rw [hafter] at hj
      cases hj
      refine .inr fun field hm => (hf field hm).mono fun k hk => ?_
      obtain ⟨there, hthere⟩ := Option.isSome_iff_exists.mp hk
      exact Option.isSome_iff_exists.mpr ⟨there, hstays k there hthere⟩
    · rw [hothers j hji] at hj
      exact .inl hj
  · rw [order_finished, h.order]
  · rw [initializations_finished, h.initializations]
  · rw [trace_finished, h.trace, hinit]
    simp
  · rw [trace_finished, h.trace, hdestroy]
    exact List.append_nil _

/-- From `c` to `d` beans were entered, if any, and the one at `i` was the first of them. -/
def Opens (i : ℕ) (c d : Container) : Prop :=
  ∃ entered, d.entries = c.entries ++ entered ∧ ∀ k ∈ entered.head?, k = i

theorem Opens.refl (i : ℕ) (c : Container) : Opens i c c :=
  ⟨[], (List.append_nil _).symm, nofun⟩

theorem opens_of_prefix (h : (c.note (.entered i)).entries <+: d.entries) : Opens i c d := by
  obtain ⟨more, hm⟩ := h
  refine ⟨i :: more, ?_, fun k hk => (Option.some.inj hk).symm⟩
  rw [← hm, entries_note]
  exact List.append_assoc _ _ _

theorem Grows.of_append {below : List ℕ} (h : Grows (stack ++ below) more c d) :
    Grows stack more c d :=
  ⟨h.steps, fun i hi => h.stack i (List.mem_append_left _ hi)⟩

end Container

/-- Beans before any of them is made: they are decided. -/
structure Registry.Ready (last : Registry) : Prop where
  status : ∀ (i : ℕ) (bean : Bean), last.beans[i]? = some bean →
    bean.status = .resolved ∨ bean.status = .deleted
  untouched : ∀ (i : ℕ) (bean : Bean), last.beans[i]? = some bean →
    bean.taken = false ∧ bean.component = none

/-- How far the bean at `i` has come, from what it was in `last`. -/
inductive Session.Fits (last : Registry) (stack : List ℕ) (c : Container) (i : ℕ) (bean : Bean) :
    Prop
  /-- Its making has not begun, or the beans are being made that it depends on. -/
  | waiting (first : last.beans[i]? = some bean) (status : bean.status = .resolved)
      (order : i ∉ c.order) (calls : ∀ stage, c.calls stage i = [])
  | dropped (first : last.beans[i]? = some bean) (status : bean.status = .deleted)
      (stack : i ∉ stack) (order : i ∉ c.order)
  /-- It is constructed, or its fields are being wired. -/
  | making (status : bean.status = .creating ∨ bean.status = .created) (stack : i ∈ stack)
      (order : i ∉ c.order) (component : bean.component = none)
      (fresh : bean.status = .creating → c.calls .construct i = [])
      (constructed : (c.calls .construct i).length ≤ 1) (calls : c.calls .init i = [])
  | made (status : bean.status = .initialized) (stack : i ∉ stack) (order : i ∈ c.order)
      (component : bean.component.isSome = true)
      (constructed : (c.calls .construct i).length ≤ 1)
      (calls : c.calls .init i = List.range bean.init.length)
      (filled : ∀ component ∈ bean.component,
        FieldStep.Filled last.Fills bean.fields component.fields)

/-- A container in which the beans on the stack are under construction. -/
structure Session (last : Registry) (store : Store) (stack : List ℕ) (c : Container) : Prop where
  ready : last.Ready
  kept : c.Kept last store
  fits : ∀ i bean, c.bean? i = some bean → Session.Fits last stack c i bean
  stack_nodup : stack.Nodup
  stack_lt : ∀ i ∈ stack, i < last.beans.length
  order_nodup : c.order.Nodup
  order_lt : ∀ i ∈ c.order, i < last.beans.length
  /-- What a bean needs at once stands before it. -/
  sorted : ∀ front i back, c.order = front ++ i :: back →
    ∀ j, last.Needs store false i j → j ∈ front
  /-- The beans on the stack were entered one after the other. -/
  entered : stack.Sublist c.entries
  closed : ∀ k ∈ c.order, ∀ j, last.Edge store k j → j ∈ c.order ∨ j ∈ stack
  /-- What a bean and those before it need stands no later, or was entered before the bean. -/
  framed : ∀ front i back, c.order = front ++ i :: back → ∀ k ∈ front ++ [i],
    ∀ j, last.Edge store k j → j ∈ front ++ [i] ∨ [j, i].Sublist c.entries

/-- All beans that take part are there. -/
def Container.Complete (last : Registry) (c : Container) : Prop :=
  ∀ (i : ℕ) (bean : Bean), last.beans[i]? = some bean → bean.isAlive = true → c.Present i

namespace Session

variable {last : Registry} {store : Store} {stack : List ℕ} {c d : Container} {i j : ℕ}
  {bean bean' : Bean}

theorem bean_of_lt (h : Session last store stack c) (hi : i < last.beans.length) :
    ∃ bean, c.bean? i = some bean := by
  rw [← h.kept.alike.length] at hi
  exact ⟨_, List.getElem?_eq_getElem hi⟩

/-- A decided bean is still the same, up to how far it has come. -/
theorem bean_of_decided (h : Session last store stack c) {first : Bean}
    (hf : last.beans[i]? = some first) :
    ∃ bean, c.bean? i = some bean ∧ bean.standing = first.standing := by
  obtain ⟨bean, hb⟩ := h.bean_of_lt (List.getElem?_eq_some_iff.mp hf).1
  obtain ⟨first', hf', hs⟩ := h.kept.alike.bean hb
  rw [hf] at hf'
  cases hf'
  exact ⟨bean, hb, hs⟩

/-- The beans in the order are those that are there. -/
theorem present_iff (h : Session last store stack c) : c.Present i ↔ i ∈ c.order := by
  constructor
  · intro hp
    obtain ⟨bean, hb, there⟩ := hp.exists_bean
    cases h.fits i bean hb with
    | waiting first | dropped first =>
      rw [(h.ready.untouched i bean first).2] at there
      cases there
    | making _ _ _ component =>
      rw [component] at there
      cases there
    | made _ _ order => exact order
  · intro ho
    obtain ⟨bean, hb⟩ := h.bean_of_lt (h.order_lt i ho)
    rw [Container.present_iff_of_bean hb]
    cases h.fits i bean hb with
    | waiting _ _ order | dropped _ _ _ order | making _ _ order => exact absurd ho order
    | made _ _ _ component => exact component

/-- A bean in the order is initialized. -/
theorem made_of_mem (h : Session last store stack c) (hi : i ∈ c.order) :
    ∃ bean, c.bean? i = some bean ∧ bean.status = .initialized ∧ bean.component.isSome = true ∧
      (c.calls .construct i).length ≤ 1 ∧ c.calls .init i = List.range bean.init.length := by
  obtain ⟨bean, hb⟩ := h.bean_of_lt (h.order_lt i hi)
  cases h.fits i bean hb with
  | waiting _ _ order | dropped _ _ _ order | making _ _ order => exact absurd hi order
  | made status _ _ component constructed calls =>
    exact ⟨bean, hb, status, component, constructed, calls⟩

theorem present_of_alive (h : Session last store stack c) (hp : c.Complete last)
    (hb : c.bean? i = some bean) (ha : bean.isAlive = true) : c.Present i := by
  obtain ⟨first, hf, hst⟩ := h.kept.alike.bean hb
  exact hp i first hf ((Bean.standing_eq hst).2.1 ▸ ha)

/-- Once they are all there, the beans in the order are those that take part. -/
theorem mem_order_iff (h : Session last store stack c) (hp : c.Complete last) :
    i ∈ c.order ↔ ∃ bean, c.bean? i = some bean ∧ bean.isAlive = true := by
  constructor
  · intro hi
    obtain ⟨bean, hb, status, -⟩ := h.made_of_mem hi
    refine ⟨bean, hb, ?_⟩
    unfold Bean.isAlive
    rw [status]
    rfl
  · rintro ⟨bean, hb, ha⟩
    exact h.present_iff.mp (h.present_of_alive hp hb ha)

/-- The fields of a bean in the order are filled with decided beans. -/
theorem filled_of_mem (h : Session last store stack c) (hi : i ∈ c.order)
    (hb : c.bean? i = some bean) {component : Component} (hc : bean.component = some component) :
    FieldStep.Filled last.Fills bean.fields component.fields := by
  cases h.fits i bean hb with
  | waiting _ _ order | dropped _ _ _ order | making _ _ order => exact absurd hi order
  | made _ _ _ _ _ _ filled => exact filled component hc

theorem present_mono (h : Session last store stack c) {stack' : List ℕ}
    (h' : Session last store stack' d) (ho : c.order ⊆ d.order) (hp : c.Present i) : d.Present i :=
  h'.present_iff.mpr (ho (h.present_iff.mp hp))

theorem granted_mono (h : Session last store stack c) {stack' below : List ℕ}
    (h' : Session last store stack' d) (ho : c.order ⊆ d.order) {lazy : Bool}
    (hg : c.Granted below lazy i) : d.Granted below lazy i :=
  hg.imp_left (h.present_mono h' ho)

/-- How far a bean has come does not depend on what happens to others. -/
theorem Fits.transport {stack' : List ℕ} (h : Fits last stack c i bean)
    (hs : i ∈ stack' ↔ i ∈ stack) (ho : i ∈ d.order ↔ i ∈ c.order)
    (hc : ∀ stage, d.calls stage i = c.calls stage i) : Fits last stack' d i bean := by
  cases h with
  | waiting first status order calls =>
    exact .waiting first status (mt ho.mp order) fun stage => (hc stage).trans (calls stage)
  | dropped first status stack order =>
    exact .dropped first status (mt hs.mp stack) (mt ho.mp order)
  | making status stack order component fresh constructed calls =>
    refine .making status (hs.mpr stack) (mt ho.mp order) component ?_ ?_ ?_
    · rw [hc]
      exact fresh
    · rw [hc]
      exact constructed
    · rw [hc]
      exact calls
  | made status stack order component constructed calls filled =>
    refine .made status (mt hs.mp stack) (ho.mpr order) component ?_ ?_ filled
    · rw [hc]
      exact constructed
    · rw [hc]
      exact calls

theorem aside (h : Session last store stack c) (ha : c.Aside d) : Session last store stack d := by
  have ho : d.order = c.order := by rw [ha.same]
  refine ⟨h.ready, h.kept.aside ha, fun k other hb => ?_, h.stack_nodup, h.stack_lt, ?_, ?_, ?_,
    ha.entries ▸ h.entered, ?_, ?_⟩
  · rw [ha.bean?] at hb
    exact (h.fits k other hb).transport Iff.rfl (by rw [ho]) fun stage => ha.calls stage k
  · exact ho ▸ h.order_nodup
  · exact ho ▸ h.order_lt
  · exact ho ▸ h.sorted
  · exact ho ▸ h.closed
  · rw [ho, ha.entries]
    exact h.framed

/-- A bean whose making begins goes on the stack. -/
theorem push (h : Session last store stack c) (hb : c.bean? i = some bean)
    (hr : bean.status = .resolved) (hi : i ∉ stack) :
    Session last store (stack ++ [i]) (c.note (.entered i)) where
  ready := h.ready
  kept := ⟨h.kept.store, h.kept.phase, h.kept.alike⟩
  fits k other hk := by
    have hcalls : ∀ stage, (c.note (.entered i)).calls stage k = c.calls stage k := fun stage => by
      rw [Container.calls_note]
      exact List.append_nil _
    change c.bean? k = some other at hk
    by_cases hki : k = i
    · subst hki
      rw [hb] at hk
      cases hk
      cases h.fits k bean hb with
      | waiting first status order calls =>
        exact .waiting first status order fun stage => (hcalls stage).trans (calls stage)
      | dropped _ status | made status =>
        rw [hr] at status
        cases status
      | making status =>
        rw [hr] at status
        rcases status with hs | hs <;> cases hs
    · exact (h.fits k other hk).transport (by simp [hki]) Iff.rfl hcalls
  stack_nodup := by
    rw [← List.concat_eq_append]
    exact .concat hi h.stack_nodup
  stack_lt k hk := by
    rcases List.mem_append.mp hk with hk | hk
    · exact h.stack_lt k hk
    · rw [List.mem_singleton] at hk
      subst hk
      rw [← h.kept.alike.length]
      exact (List.getElem?_eq_some_iff.mp hb).1
  order_nodup := h.order_nodup
  order_lt := h.order_lt
  sorted := h.sorted
  entered := by
    rw [Container.entries_note]
    exact h.entered.append (.refl [i])
  closed k hk j hj := (h.closed k hk j hj).imp_right (List.mem_append_left _)
  framed front l back ho k hk j hj := by
    rw [Container.entries_note]
    exact (h.framed front l back ho k hk j hj).imp_right fun hs =>
      hs.trans (List.sublist_append_left _ _)

theorem kept_changes {new : Stage → List ℕ} (h : c.Kept last store) (hb : c.bean? i = some bean)
    (hs : bean'.standing = bean.standing) (hc : Container.Changes i bean' new c d) :
    d.Kept last store := by
  refine ⟨hc.store.trans h.store, hc.phase.trans h.phase, h.alike.trans ?_⟩
  refine List.ext_getElem? fun k => ?_
  rw [List.getElem?_map, List.getElem?_map]
  show (d.bean? k).map _ = (c.bean? k).map _
  by_cases hk : k = i
  · rw [hk, hc.here, hb, Option.map_some, Option.map_some, hs]
  · rw [hc.others k hk]

/-- The bean on top of the stack goes on. -/
theorem change {new : Stage → List ℕ} (h : Session last store stack c)
    (hb : c.bean? i = some bean) (hs : bean'.standing = bean.standing)
    (hc : Container.Changes i bean' new c d) (hf : Fits last stack d i bean') :
    Session last store stack d := by
  refine ⟨h.ready, kept_changes h.kept hb hs hc, fun k other hk => ?_, h.stack_nodup, h.stack_lt,
    ?_, ?_, ?_, hc.entries ▸ h.entered, ?_, ?_⟩
  · by_cases hki : k = i
    · subst hki
      rw [hc.here] at hk
      cases hk
      exact hf
    · rw [hc.others k hki] at hk
      refine (h.fits k other hk).transport Iff.rfl (by rw [hc.order]) fun stage => ?_
      rw [hc.calls, if_neg hki, List.append_nil]
  · exact hc.order ▸ h.order_nodup
  · exact hc.order ▸ h.order_lt
  · exact hc.order ▸ h.sorted
  · exact hc.order ▸ h.closed
  · rw [hc.order, hc.entries]
    exact h.framed

/-- What a bean on the stack has behind it. -/
theorem on_stack (h : Session last store stack c) (hi : i ∈ stack) (hb : c.bean? i = some bean) :
    i ∉ c.order ∧ bean.component = none ∧ c.calls .init i = [] := by
  cases h.fits i bean hb with
  | waiting first status order calls =>
    exact ⟨order, (h.ready.untouched i bean first).2, calls .init⟩
  | dropped _ _ hs => exact absurd hi hs
  | making _ _ order component _ _ calls => exact ⟨order, component, calls⟩
  | made _ hs => exact absurd hi hs

/-- The bean on top of the stack is not below it. -/
theorem nodup_below (h : Session last store (stack ++ [i]) c) : i ∉ stack ∧ stack.Nodup := by
  rw [← List.nodup_concat, List.concat_eq_append]
  exact h.stack_nodup

/-- What holds of each bean of an order with those before it holds when one is added of which it
holds. -/
theorem forall_concat {holds : List ℕ → ℕ → Prop} {order : List ℕ}
    (h : ∀ front k back, order = front ++ k :: back → holds front k) (hi : holds order i) :
    ∀ front k back, order ++ [i] = front ++ k :: back → holds front k := by
  intro front k back he
  -- either `k` is the new bean, or it stands in the old order with the same beans before it
  rcases List.eq_nil_or_concat back with rfl | ⟨more, l, rfl⟩
  · obtain ⟨rfl, hk⟩ := List.append_inj' he rfl
    cases hk
    exact hi
  · rw [List.concat_eq_append, ← List.cons_append, ← List.append_assoc] at he
    obtain ⟨he, -⟩ := List.append_inj' he rfl
    exact h front k more he

/-- What the bean on top of the stack and those in the order need was entered. -/
theorem closed_concat (h : Session last store (stack ++ [i]) c)
    (hn : ∀ lazy j, last.Needs store lazy i j → c.Granted (stack ++ [i]) lazy j) {k : ℕ}
    (hk : k ∈ c.order ++ [i]) (hj : last.Edge store k j) : j ∈ c.order ++ [i] ∨ j ∈ stack := by
  have hin : j ∈ c.order ∨ j ∈ stack ++ [i] := by
    rcases List.mem_append.mp hk with hk | hk
    · exact h.closed k hk j hj
    · obtain ⟨lazy, hneed⟩ := List.mem_singleton.mp hk ▸ hj
      exact (hn lazy j hneed).imp h.present_iff.mp And.right
  simp only [List.mem_append] at hin ⊢
  tauto

/-- The bean on top of the stack is initialized: it leaves the stack and stands last in the order.
All that it needs was granted. -/
theorem finish {new : Stage → List ℕ} (h : Session last store (stack ++ [i]) c)
    (hb : c.bean? i = some bean) (hs : bean'.standing = bean.standing)
    (hc : Container.Changes i bean' new c d) (hi : bean'.status = .initialized)
    (hp : bean'.component.isSome = true) (hcons : (d.calls .construct i).length ≤ 1)
    (hinit : d.calls .init i = List.range bean'.init.length)
    (hfilled : ∀ component ∈ bean'.component,
      FieldStep.Filled last.Fills bean'.fields component.fields)
    (hn : ∀ lazy j, last.Needs store lazy i j → c.Granted (stack ++ [i]) lazy j) :
    Session last store stack (d.finished i) := by
  have hmem : i ∈ stack ++ [i] := List.mem_concat_self
  obtain ⟨hstack, hbelow⟩ := h.nodup_below
  have horder : i ∉ d.order := hc.order ▸ (h.on_stack hmem hb).1
  have hk := kept_changes h.kept hb hs hc
  refine ⟨h.ready, ⟨hk.store, hk.phase, hk.alike⟩, fun k other hk => ?_, hbelow,
    fun k hk => h.stack_lt k (List.mem_append_left _ hk), ?_, fun k hk => ?_, ?_, ?_, ?_, ?_⟩
  · rw [Container.bean?_finished] at hk
    by_cases hki : k = i
    · subst hki
      rw [hc.here] at hk
      cases hk
      refine .made hi hstack List.mem_concat_self hp ?_ ?_ hfilled
      · rw [Container.calls_finished]
        exact hcons
      · rw [Container.calls_finished]
        exact hinit
    · rw [hc.others k hki] at hk
      refine (h.fits k other hk).transport (by simp [hki]) ?_ fun stage => ?_
      · rw [Container.order_finished, hc.order]
        simp [hki]
      · rw [Container.calls_finished, hc.calls, if_neg hki, List.append_nil]
  · rw [Container.order_finished, ← List.concat_eq_append]
    exact .concat horder (hc.order ▸ h.order_nodup)
  · rw [Container.order_finished, hc.order] at hk
    rcases List.mem_append.mp hk with hk | hk
    · exact h.order_lt k hk
    · rw [List.mem_singleton] at hk
      exact hk ▸ h.stack_lt i hmem
  · rw [Container.order_finished, hc.order]
    exact forall_concat h.sorted fun j hj => h.present_iff.mp (hn false j hj).present
  · rw [Container.entries_finished, hc.entries]
    exact (List.sublist_append_left _ _).trans h.entered
  · rw [Container.order_finished, hc.order]
    exact fun k hk j hj => h.closed_concat hn hk hj
  · rw [Container.order_finished, hc.order, Container.entries_finished, hc.entries]
    refine forall_concat h.framed fun k hk j hj => ?_
    refine (h.closed_concat hn hk hj).imp_right fun hm => ?_
    have hpair : [j, i].Sublist (stack ++ [i]) :=
      (List.singleton_sublist.mpr hm).append (.refl [i])
    exact hpair.trans h.entered

end Session
end BeanContainer
