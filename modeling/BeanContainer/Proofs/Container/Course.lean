/-
# The course of a container

What stays and what is added while beans are being made. A component that is there stays as it is.
The fields of one that is added refer to beans that are there, and late to beans that take part. The
beans that are added to the order are initialized one after the other, each with all its init hooks.

Key definitions: `Container.trace`, `Container.initializations`, `Registry.hookSteps`,
`Registry.Names`, `Value.Refers`, `Container.Extends`.
Key theorems: `Value.Refers.mono`, `Container.Extends.trans`, `Container.Aside.extends`,
`Container.extends_modifyBean`, `Container.extends_note`.
-/
import BeanContainer.Proofs.Container.Supply

namespace BeanContainer

/-! ### What happened -/

namespace Container

variable {c d e : Container}

/-- The bean and the step of an event that is a call for a stage. -/
def calledStep (stage : Stage) : Event → Option (ℕ × ℕ)
  | .called stage' i step => if stage' = stage then some (i, step) else none
  | _ => none

/-- The calls of the code of beans for a stage, in order. -/
def trace (c : Container) (stage : Stage) : List (ℕ × ℕ) :=
  c.events.filterMap (calledStep stage)

/-- The bean whose making comes to its end with an event. -/
def initializedBean : Event → Option ℕ
  | .initialized i => some i
  | _ => none

/-- The beans whose making came to its end, in order. -/
def initializations (c : Container) : List ℕ := c.events.filterMap initializedBean

theorem mem_initializedBeans {log : List Event} {i : ℕ} :
    i ∈ log.filterMap initializedBean ↔ .initialized i ∈ log := by
  have hbean : ∀ event, initializedBean event = some i ↔ event = .initialized i := by
    intro event
    cases event <;> simp [initializedBean]
  simp only [List.mem_filterMap, hbean, exists_eq_right]

theorem trace_note (c : Container) (event : Event) (stage : Stage) :
    (c.note event).trace stage = c.trace stage ++ (calledStep stage event).toList := by
  unfold trace note
  rw [List.filterMap_append, List.filterMap_cons]
  cases calledStep stage event <;> rfl

theorem initializations_note (c : Container) (event : Event) :
    (c.note event).initializations = c.initializations ++ (initializedBean event).toList := by
  unfold initializations note
  rw [List.filterMap_append, List.filterMap_cons]
  cases initializedBean event <;> rfl

/-- What is read off the steps in the making of beans stays the same. -/
theorem Aside.filterMap_events {α : Type} {f : Event → Option α} (h : c.Aside d)
    (hf : ∀ event : Event, event.isStep = false → f event = none) :
    d.events.filterMap f = c.events.filterMap f := by
  obtain ⟨quiet, hq, hc⟩ := h.events
  have hn : quiet.filterMap f = [] :=
    List.filterMap_eq_nil_iff.mpr fun event he => hf event (hc event he)
  rw [hq, List.filterMap_append, hn, List.append_nil]

theorem Aside.trace (h : c.Aside d) (stage : Stage) : d.trace stage = c.trace stage := by
  refine h.filterMap_events fun event hn => ?_
  cases event with
  | called => cases hn
  | _ => rfl

theorem Aside.initializations (h : c.Aside d) : d.initializations = c.initializations := by
  refine h.filterMap_events fun event hn => ?_
  cases event with
  | initialized => cases hn
  | _ => rfl

theorem Aside.component? (h : c.Aside d) (i : ℕ) : d.component? i = c.component? i :=
  component?_congr (h.bean? i)

end Container

/-! ### Hooks and references -/

/-- The hooks of a stage, in the order in which they were added. -/
def Definition.hooks (definition : Definition) : Stage → List (List Action)
  | .init => definition.init
  | .destroy => definition.destroy
  | _ => []

namespace Registry

variable {registry other : Registry} {handle : Handle}

/-- The hooks of the bean at a position for a stage, each as the bean with the number of the hook. -/
def hookSteps (registry : Registry) (stage : Stage) (i : ℕ) : List (ℕ × ℕ) :=
  (List.range ((registry.beans[i]?.map (·.hooks stage)).getD []).length).map (i, ·)

theorem hookSteps_of_bean {i : ℕ} {bean : Bean} (hb : registry.beans[i]? = some bean)
    (stage : Stage) :
    registry.hookSteps stage i = (List.range (bean.hooks stage).length).map (i, ·) := by
  rw [hookSteps, hb]
  rfl

/-- Hooks are part of the definitions. -/
theorem hookSteps_congr (h : registry.beans.map (·.toDefinition) = other.beans.map (·.toDefinition))
    (stage : Stage) : registry.hookSteps stage = other.hookSteps stage := by
  funext i
  have hi := congrArg (·[i]?.map fun definition : Definition => definition.hooks stage) h
  simp only [List.getElem?_map, Option.map_map] at hi
  unfold hookSteps
  exact congrArg (fun hooks => (List.range (hooks.getD []).length).map (i, ·)) hi

/-- Calls of different beans differ, and so do those of different hooks of one bean. -/
theorem nodup_hookSteps {positions : List ℕ} (h : positions.Nodup) (stage : Stage) :
    (positions.flatMap (registry.hookSteps stage)).Nodup := by
  rw [List.nodup_flatMap]
  refine ⟨fun i _ => ?_, h.imp fun hij => ?_⟩
  · exact List.nodup_range.map fun _ _ he => (Prod.mk.inj he).2
  · intro step hi hj
    obtain ⟨_, -, rfl⟩ := List.mem_map.mp hi
    obtain ⟨_, -, he⟩ := List.mem_map.mp hj
    exact hij (Prod.mk.inj he).1.symm

theorem Alike.definitions (h : registry.Alike other) :
    other.beans.map (·.toDefinition) = registry.beans.map (·.toDefinition) := by
  have hd := congrArg (List.map Prod.fst) h
  rw [List.map_map, List.map_map] at hd
  exact hd

/-- The handle names a bean that takes part, by its id, as one of the types that it is injectable
as. -/
def Names (registry : Registry) (handle : Handle) : Prop :=
  ∃ bean, registry.beans[handle.bean]? = some bean ∧ bean.isAlive = true ∧ bean.id = handle.id ∧
    handle.type ∈ bean.exports

theorem Alike.names (h : registry.Alike other) (hn : registry.Names handle) :
    other.Names handle := by
  obtain ⟨first, hf, ha, hid, htype⟩ := hn
  obtain ⟨bean, hb, hs⟩ := Alike.bean (Eq.symm h) hf
  obtain ⟨hd, ha', -⟩ := Bean.standing_eq hs
  rw [hd] at hid htype
  exact ⟨bean, hb, ha'.symm.trans ha, hid, htype⟩

/-- The handles of selected beans name them. -/
theorem names_of_select {type : TypeName} {tag : AutowireTag} {positions : List ℕ}
    (hs : registry.select type tag = .ok positions)
    (hm : handle ∈ registry.handles type positions) :
    registry.Names handle ∧ handle.type = type := by
  obtain ⟨bean, hb, he⟩ := mem_handles hm
  have hi : handle.bean ∈ positions := by
    rw [← handles_bean (select_subset hs)]
    exact List.mem_map_of_mem hm
  obtain ⟨bean', hb', hinject, hexport⟩ := mem_candidates.mp (select_subset hs hi)
  rw [hb] at hb'
  cases hb'
  have hid := congrArg Handle.id he
  have htype := congrArg Handle.type he
  refine ⟨⟨bean, hb, (Bool.and_eq_true_iff.mp hinject).1, hid.symm, ?_⟩, htype⟩
  rw [htype]
  exact List.elem_iff.mp hexport

end Registry

namespace Value

/-- What the value of an injection point refers to is there: a bean, the beans of a list, and those
of a map under their ids. Late references name beans that take part. -/
def Refers (last : Registry) (c : Container) : Value → Prop
  | .bean i => c.Present i
  | .list items => ∀ item ∈ items, ∃ i, item = .bean i ∧ c.Present i
  | .dict entries => ∀ entry ∈ entries, ∃ i bean, entry.2 = .bean i ∧ c.Present i ∧
      last.beans[i]? = some bean ∧ bean.id = entry.1
  | .lazy target => ∀ handle ∈ target, last.Names handle
  | .survey found => ∀ entry ∈ found.handles, last.Names entry.1 ∧
      (entry.2 = true → c.Present entry.1.bean)
  | _ => True

/-- References stay good where beans stay. -/
theorem Refers.mono {last : Registry} {c d : Container} {value : Value}
    (h : value.Refers last c) (hp : ∀ i, c.Present i → d.Present i) : value.Refers last d := by
  cases value with
  | bean i => exact hp i h
  | list items =>
    intro item hm
    obtain ⟨i, he, hi⟩ := h item hm
    exact ⟨i, he, hp i hi⟩
  | dict entries =>
    intro entry hm
    obtain ⟨i, bean, he, hi, hb⟩ := h entry hm
    exact ⟨i, bean, he, hp i hi, hb⟩
  | survey found => exact fun entry hm => (h entry hm).imp_right fun hi he => hp _ (hi he)
  | lazy => exact h
  | _ => trivial

theorem Refers.alike {last other : Registry} {c : Container} {value : Value}
    (h : last.Alike other) (hv : value.Refers last c) : value.Refers other c := by
  cases value with
  | bean | list => exact hv
  | dict entries =>
    intro entry hm
    obtain ⟨i, first, he, hi, hf, hid⟩ := hv entry hm
    obtain ⟨bean, hb, hs⟩ := Registry.Alike.bean (Eq.symm h) hf
    refine ⟨i, bean, he, hi, hb, ?_⟩
    rw [← hid, (Bean.standing_eq hs).1]
  | lazy target => exact fun handle hm => h.names (hv handle hm)
  | survey found => exact fun entry hm => (hv entry hm).imp_left h.names
  | _ => trivial

end Value

namespace Container

variable {last : Registry} {c d e : Container} {i : ℕ} {bean : Bean}

/-! ### Containers that come later -/

/-- From `c` to `d` components stayed, and beans were added to the order as they were initialized. -/
structure Extends (last : Registry) (c d : Container) : Prop where
  components : ∀ i component, c.component? i = some component → d.component? i = some component
  /-- The fields of a component that was added refer to what is there. -/
  fields : ∀ i component, d.component? i = some component →
    c.component? i = some component ∨ ∀ field ∈ component.fields, field.2.Refers last d
  /-- The beans that were added to the order are those that were initialized, and the init hooks of
  each were called once, one bean after the other. No destroy hook was called. -/
  steps : ∃ made, d.order = c.order ++ made ∧ d.initializations = c.initializations ++ made ∧
    d.trace .init = c.trace .init ++ made.flatMap (last.hookSteps .init) ∧
    d.trace .destroy = c.trace .destroy

theorem Extends.present (h : Extends last c d) (hp : c.Present i) : d.Present i := by
  obtain ⟨component, hc⟩ := Option.isSome_iff_exists.mp hp
  exact Option.isSome_iff_exists.mpr ⟨component, h.components i component hc⟩

theorem Extends.refers (h : Extends last c d) {value : Value} (hv : value.Refers last c) :
    value.Refers last d := hv.mono fun _ => h.present

/-- Where no component changes and nothing is noted of initializations and hooks. -/
theorem Extends.of_eq (hc : ∀ i, d.component? i = c.component? i) (ho : d.order = c.order)
    (hi : d.initializations = c.initializations) (hinit : d.trace .init = c.trace .init)
    (hdestroy : d.trace .destroy = c.trace .destroy) : Extends last c d where
  components i component h := (hc i).trans h
  fields i component h := .inl ((hc i).symm.trans h)
  steps := ⟨[], by simp [ho], by simp [hi], by simp [hinit], hdestroy⟩

theorem Extends.refl (last : Registry) (c : Container) : Extends last c c :=
  .of_eq (fun _ => rfl) rfl rfl rfl rfl

theorem Extends.trans (h : Extends last c d) (h' : Extends last d e) : Extends last c e where
  components i component hc := h'.components i component (h.components i component hc)
  fields i component hc := by
    rcases h'.fields i component hc with hd | hd
    · exact (h.fields i component hd).imp_right fun hr field hm => h'.refers (hr field hm)
    · exact .inr hd
  steps := by
    obtain ⟨made, ho, hi, hinit, hdestroy⟩ := h.steps
    obtain ⟨made', ho', hi', hinit', hdestroy'⟩ := h'.steps
    refine ⟨made ++ made', ?_, ?_, ?_, hdestroy'.trans hdestroy⟩
    · rw [ho', ho, List.append_assoc]
    · rw [hi', hi, List.append_assoc]
    · rw [hinit', hinit, List.flatMap_append, List.append_assoc]

theorem Aside.extends (h : c.Aside d) : Extends last c d :=
  .of_eq h.component? (by rw [h.same]) h.initializations (h.trace _) (h.trace _)

theorem extends_modifyBean (c : Container) (i : ℕ) {change : Bean → Bean}
    (h : ∀ bean, (change bean).component = bean.component) :
    Extends last c (c.modifyBean i change) := by
  refine .of_eq (fun j => ?_) rfl rfl rfl rfl
  unfold component? bean? modifyBean Registry.modify
  rw [List.getElem?_modify]
  by_cases hij : i = j
  · simp [hij, h, Option.bind_map]
  · simp [hij]

theorem extends_note (c : Container) {event : Event} (hi : initializedBean event = none)
    (hinit : calledStep .init event = none) (hdestroy : calledStep .destroy event = none) :
    Extends last c (c.note event) := by
  refine .of_eq (fun _ => rfl) rfl ?_ ?_ ?_
  · rw [initializations_note, hi]
    exact List.append_nil _
  · rw [trace_note, hinit]
    exact List.append_nil _
  · rw [trace_note, hdestroy]
    exact List.append_nil _

end Container
end BeanContainer
