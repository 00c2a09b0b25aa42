/-
# What fields are filled with

An injection point gets its value from the handles that its tag picks and from nothing else, once the
beans are there that it takes at once (`Injection.gives_fill`). While beans are made these handles
are those of the decided beans, so what a field got can be read off the decided beans
(`Supply.fields_filled`).

Key definitions: `Run.Gives`, `Receiver.gift`, `Registry.Gives`, `Registry.Fills`,
`FieldStep.Filled`, `Registry.LateFields`.
Key theorems: `Injection.gives_fill`, `Supply.fill_gives`, `Supply.fields_filled`,
`Registry.late_of_filled`.
-/
import BeanContainer.Proofs.Container.Fulfilment
import Mathlib.Data.List.Forall2

namespace BeanContainer

variable {α β : Type} {last : Registry} {store : Store} {c d e : Container}

namespace Run

/-- From `c` the computation ends in `d`. It gives this result; if there is none, it fails. -/
def Gives (run : Run α) (c d : Container) (result : Option α) : Prop :=
  ∃ outcome, exec run c = (outcome, d) ∧ outcome.toOption = result

theorem gives_some {run : Run α} {a : α} : run.Gives c d (some a) ↔ exec run c = (.ok a, d) := by
  constructor
  · rintro ⟨fault | b, hx, he⟩ <;> cases he
    exact hx
  · exact fun hx => ⟨_, hx, rfl⟩

theorem gives_throw (fault : Fault) (c : Container) : Gives (throw fault : Run α) c c none :=
  ⟨.error fault, rfl, rfl⟩

theorem Gives.bind {run : Run α} {next : α → Run β} {result : Option α} {f : α → Option β}
    (h : run.Gives c d result) (hn : ∀ a, result = some a → (next a).Gives d d (f a)) :
    (run >>= next).Gives c d (result >>= f) := by
  obtain ⟨fault | a, hx, rfl⟩ := h
  · exact ⟨.error fault, exec_bind_error hx, rfl⟩
  · obtain ⟨outcome, hy, ho⟩ := hn a rfl
    exact ⟨outcome, (exec_bind_ok hx).trans hy, ho⟩

theorem Gives.after {run : Run α} {next : α → Run β} {a : α} {result : Option β}
    (h : (next a).Gives d e result) (hx : exec run c = (.ok a, d)) :
    (run >>= next).Gives c e result := by
  obtain ⟨outcome, hy, ho⟩ := h
  exact ⟨outcome, (exec_bind_ok hx).trans hy, ho⟩

theorem Gives.unique {run : Run α} {a : α} {result : Option α} (h : run.Gives c d result)
    (hx : exec run c = (.ok a, e)) : e = d ∧ result = some a := by
  obtain ⟨outcome, hy, rfl⟩ := h
  rw [hx] at hy
  obtain ⟨rfl, rfl⟩ := Prod.mk.inj hy
  exact ⟨rfl, rfl⟩

theorem exec_mapM_map {f : α → Run β} {g : α → β} {items : List α}
    (h : ∀ a ∈ items, exec (f a) c = (.ok (g a), c)) :
    exec (items.mapM f) c = (.ok (items.map g), c) := by
  induction items with
  | nil => rfl
  | cons a rest ih =>
    have hrest := ih fun a' ha => h a' (List.mem_cons_of_mem a ha)
    rw [List.mapM_cons, exec_bind_ok (h a List.mem_cons_self), exec_bind_ok hrest]
    rfl

end Run

/-! ### What receivers get -/

namespace Handle

/-- The only one of these handles, or none where that is allowed. -/
def only (optional : Bool) : List Handle → Option (Option Handle)
  | [] => if optional then some none else none
  | [handle] => some (some handle)
  | _ => none

/-- These handles; there has to be one where none is not allowed. -/
def all (optional : Bool) (handles : List Handle) : Option (List Handle) :=
  if handles.isEmpty && !optional then none else some handles

theorem mem_of_only {optional : Bool} {handles : List Handle} {handle : Handle}
    (h : only optional handles = some (some handle)) : handle ∈ handles := by
  match handles with
  | [] => cases optional <;> cases h
  | [_] =>
    cases h
    exact List.mem_cons_self
  | _ :: _ :: _ => cases h

theorem eq_of_all {optional : Bool} {handles given : List Handle}
    (h : all optional handles = some given) : given = handles := by
  unfold all at h
  split at h <;> cases h
  rfl

end Handle

namespace Receiver

/-- Whether the receiver takes beans late; none where it is not beans alone that it takes. -/
def late? : Receiver → Option Bool
  | one | optional | many | byId => some false
  | lazy => some true
  | context | survey .. => none

/-- The tag with which the receiver asks: exactly one bean is not optional. -/
def asking (tag : AutowireTag) : Receiver → AutowireTag
  | one => { tag with optional := false }
  | _ => tag

/-- What the receiver gets of these handles, if it takes them. -/
def gift (optional : Bool) (handles : List Handle) : Receiver → Option Value
  | one => do
    match ← Handle.only optional handles with
    | some handle => return .bean handle.bean
    | none => none
  | .optional => do
    match ← Handle.only optional handles with
    | some handle => return .bean handle.bean
    | none => return .missing
  | many => do return .list ((← Handle.all optional handles).map fun handle => .bean handle.bean)
  | byId => do
    return .dict (Entries.ofPairs ((← Handle.all optional handles).map fun handle =>
      (handle.id, .bean handle.bean)))
  | lazy => do return .lazy (← Handle.only optional handles)
  | context | survey .. => none

end Receiver

namespace Injection

variable {inject : Injector} {type : TypeName} {tag : AutowireTag} {lazy : Bool}
  {handles : List Handle}

theorem gives_atMostOne (h : (inject type tag lazy).exec c = (.ok handles, d)) :
    (atMostOne inject type tag lazy).Gives c d (Handle.only tag.optional handles) := by
  unfold atMostOne
  refine Run.Gives.after ?_ h
  match handles with
  | [] => cases tag.optional <;> exact ⟨_, rfl, rfl⟩
  | [handle] => exact ⟨_, rfl, rfl⟩
  | _ :: _ :: _ => exact ⟨_, rfl, rfl⟩

theorem gives_several (h : (inject type tag false).exec c = (.ok handles, d)) :
    (several inject type tag).Gives c d (Handle.all tag.optional handles) := by
  unfold several
  refine Run.Gives.after ?_ h
  unfold Handle.all
  by_cases hn : (handles.isEmpty && !tag.optional) = true
  · rw [if_pos hn, if_pos hn]
    exact Run.gives_throw _ d
  · rw [if_neg hn, if_neg hn]
    exact ⟨_, rfl, rfl⟩

/-- **What a receiver gets of the beans that it asks for**, when those are there that it takes at
once. -/
theorem gives_fill {receiver : Receiver} (hr : receiver.late? = some lazy)
    (h : (inject type (receiver.asking tag) lazy).exec c = (.ok handles, d))
    (hp : lazy = false → ∀ handle ∈ handles, d.Present handle.bean) :
    (fill inject tag ⟨receiver, type⟩).Gives c d
      (receiver.gift (receiver.asking tag).optional handles) := by
  unfold fill Receiver.gift
  cases receiver with
  | one =>
    cases hr
    refine (gives_atMostOne h).bind fun target ht => ?_
    cases target with
    | none => exact Run.gives_throw _ d
    | some handle => exact Run.gives_some.mpr (Handle.exec_require (hp rfl _ (Handle.mem_of_only ht)))
  | optional =>
    cases hr
    refine (gives_atMostOne h).bind fun target ht => ?_
    cases target with
    | none => exact ⟨_, rfl, rfl⟩
    | some handle => exact Run.gives_some.mpr (Handle.exec_require (hp rfl _ (Handle.mem_of_only ht)))
  | many =>
    cases hr
    refine (gives_several h).bind fun given hg => ?_
    obtain rfl := Handle.eq_of_all hg
    have hitem : ∀ handle ∈ given, handle.require.exec d = (.ok (.bean handle.bean), d) :=
      fun handle hm => Handle.exec_require (hp rfl handle hm)
    exact Run.Gives.after ⟨_, rfl, rfl⟩ (Run.exec_mapM_map hitem)
  | byId =>
    cases hr
    refine (gives_several h).bind fun given hg => ?_
    obtain rfl := Handle.eq_of_all hg
    have hentry : ∀ handle ∈ given, Run.exec (do return (handle.id, ← handle.require)) d =
        (.ok (handle.id, Value.bean handle.bean), d) := fun handle hm =>
      Run.exec_bind_ok (Handle.exec_require (hp rfl handle hm))
    exact Run.Gives.after ⟨_, rfl, rfl⟩ (Run.exec_mapM_map hentry)
  | lazy =>
    cases hr
    exact (gives_atMostOne h).bind fun target ht => ⟨_, rfl, rfl⟩
  | context | survey => cases hr

theorem gives_fill_error {receiver : Receiver} {fault : Fault} (hr : receiver.late? = some lazy)
    (h : (inject type (receiver.asking tag) lazy).exec c = (.error fault, d)) :
    (fill inject tag ⟨receiver, type⟩).exec c = (.error fault, d) := by
  unfold fill
  cases receiver with
  | one | optional | lazy =>
    cases hr
    exact Run.exec_bind_error (Run.exec_bind_error h)
  | many | byId =>
    cases hr
    exact Run.exec_bind_error (Run.exec_bind_error h)
  | context | survey => cases hr

end Injection

/-! ### What injection points are given -/

/-- An injection point with this tag gets the value from the beans of the registry. -/
inductive Registry.Gives (registry : Registry) (tag : AutowireTag) : Injection → Value → Prop
  | context {type : TypeName} : Gives registry tag ⟨.context, type⟩ .context
  | beans {receiver : Receiver} {type : TypeName} {lazy : Bool} {positions : List ℕ}
      {value : Value} : receiver.late? = some lazy →
      registry.select type (receiver.asking tag) = .ok positions →
      receiver.gift (receiver.asking tag).optional (registry.handles type positions) =
        some value → Gives registry tag ⟨receiver, type⟩ value

/-- The injection point takes more than beans. -/
def Injection.IsSurvey (injection : Injection) : Prop :=
  ∃ lazy probe, injection.receiver = .survey lazy probe

/-- An injection point with this tag that takes beans gets the value from those of the registry. -/
def Registry.Fills (registry : Registry) (tag : String) (injection : Injection) (value : Value) :
    Prop :=
  ¬ injection.IsSurvey → ∃ parsed, AutowireTag.parse tag = .ok parsed ∧
    registry.Gives parsed injection value

/-- **While beans are made, an injection point gets its value from the decided beans.** -/
theorem Supply.fill_gives {s : Supply last store} {tag : AutowireTag} {injection : Injection}
    {value : Value} (hc : s.holds c) (hn : ¬ injection.IsSurvey)
    (hx : (injection.fill s.injector tag).exec c = (.ok value, d)) :
    last.Gives tag injection value := by
  obtain ⟨receiver, type⟩ := injection
  rcases hr : receiver.late? with _ | lazy
  · cases receiver with
    | context =>
      cases hx
      exact .context
    | survey lazy probe => exact absurd ⟨lazy, probe, rfl⟩ hn
    | _ => cases hr
  · let want : Want := ⟨type, receiver.asking tag, lazy⟩
    rcases hi : (s.injector want.type want.tag want.lazy).exec c with ⟨fault | handles, c1⟩
    · rw [Injection.gives_fill_error hr hi] at hx
      cases hx
    · obtain ⟨-, positions, hselect, rfl, -⟩ := s.gives hc hi
      have hgives := Injection.gives_fill hr hi (s.present_of_gives hc hi)
      exact .beans hr hselect (hgives.unique hx).2

/-! ### Fields -/

namespace FieldStep

/-- The name of the field that a step fills, if it fills one. -/
def name? : FieldStep → Option String
  | value name .. | autowire name .. | logger name | find name _ | property name _ => some name
  | announce | shutdown | fail _ | panic _ => none

/-- The step filled this field; what was injected is as `holds` says of its tag, its injection point
and the value. -/
def Fills (holds : String → Injection → Value → Prop) (step : FieldStep)
    (field : String × Value) : Prop :=
  step.name? = some field.1 ∧
    ∀ name tag injection, step = .autowire name tag injection → holds tag injection field.2

/-- The steps filled these fields, one after the other. -/
def Filled (holds : String → Injection → Value → Prop) (steps : List FieldStep)
    (fields : List (String × Value)) : Prop :=
  List.Forall₂ (Fills holds) (steps.filter (·.name?.isSome)) fields

variable {holds holds' : String → Injection → Value → Prop} {steps : List FieldStep}
  {fields : List (String × Value)}

theorem Filled.imp (h : Filled holds steps fields)
    (hi : ∀ tag injection value, holds tag injection value → holds' tag injection value) :
    Filled holds' steps fields :=
  List.Forall₂.imp (fun _ _ hf => hf.imp_right fun ha name tag injection he =>
    hi tag injection _ (ha name tag injection he)) h

theorem Filled.exists_field (h : Filled holds steps fields) {name tag : String}
    {injection : Injection} (hm : .autowire name tag injection ∈ steps) :
    ∃ value, (name, value) ∈ fields ∧ holds tag injection value := by
  have hfill : .autowire name tag injection ∈ steps.filter (·.name?.isSome) :=
    List.mem_filter.mpr ⟨hm, rfl⟩
  unfold Filled at h
  generalize steps.filter (·.name?.isSome) = filling at h hfill
  induction h with
  | nil => cases hfill
  | @cons step field rest more hone hrest ih =>
    rcases List.mem_cons.mp hfill with rfl | hfill
    · obtain ⟨hname, hvalue⟩ := hone
      cases hname
      exact ⟨field.2, List.mem_cons_self, hvalue _ _ _ rfl⟩
    · obtain ⟨value, hv, hh⟩ := ih hfill
      exact ⟨value, List.mem_cons_of_mem field hv, hh⟩

end FieldStep

namespace Supply

variable {s : Supply last store} {owner : String} {definition : Definition}

theorem step_fills {step : FieldStep} {field : Option (String × Value)} (hc : s.holds c)
    (hx : (step.run s.injector owner definition).exec c = (.ok field, d)) :
    step.name? = field.map Prod.fst ∧ ∀ filled ∈ field, step.Fills last.Fills filled := by
  cases step with
  | announce | shutdown =>
    cases hx
    exact ⟨rfl, nofun⟩
  | value name tag validator schema =>
    obtain ⟨target, c1, -, hx⟩ := Run.bind_ok_inv hx
    rw [Run.exec_get_bind] at hx
    obtain ⟨data, c2, -, hx⟩ := Run.bind_ok_inv hx
    cases hx
    refine ⟨rfl, ?_⟩
    rintro _ ⟨⟩
    exact ⟨rfl, nofun⟩
  | autowire name tag injection =>
    obtain ⟨parsed, c1, hparse, hx⟩ := Run.bind_ok_inv hx
    rw [Run.exec_ofExcept] at hparse
    obtain ⟨htag, rfl⟩ := Prod.mk.inj hparse
    obtain ⟨value, c2, hfill, hx⟩ := Run.bind_ok_inv hx
    cases hx
    refine ⟨rfl, ?_⟩
    rintro _ ⟨⟩
    refine ⟨rfl, ?_⟩
    rintro _ _ _ ⟨⟩ hn
    exact ⟨parsed, htag, fill_gives hc hn hfill⟩
  | logger name | find name selector | property name key =>
    cases hx
    refine ⟨rfl, ?_⟩
    rintro _ ⟨⟩
    exact ⟨rfl, nofun⟩
  | fail reason | panic reason => cases hx

theorem steps_filled {steps : List FieldStep} {fields : List (String × Value)} (hc : s.holds c)
    (hx : (FieldStep.runAll s.injector owner definition steps).exec c = (.ok fields, d)) :
    FieldStep.Filled last.Fills steps fields := by
  induction steps generalizing c fields with
  | nil =>
    cases hx
    exact .nil
  | cons step rest ih =>
    obtain ⟨field, c1, hstep, hx⟩ := Run.bind_ok_inv hx
    obtain ⟨more, c2, hrest, hfields⟩ := Run.bind_ok_inv hx
    cases hfields
    have he := meets_step (s := s) owner definition step c hc
    rw [hstep] at he
    cases he with
    | done hc1 =>
      obtain ⟨hname, hfill⟩ := step_fills hc hstep
      have hmore := ih hc1 hrest
      unfold FieldStep.Filled at hmore ⊢
      rw [List.filter_cons, hname, Option.isSome_map]
      cases field with
      | none => exact hmore
      | some filled => exact .cons (hfill filled rfl) hmore

/-- **What fields are filled with can be read off the decided beans.** -/
theorem fields_filled {fields : List (String × Value)} (hc : s.holds c)
    (hx : (definition.wireFields s.injector owner).exec c = (.ok fields, d)) :
    FieldStep.Filled last.Fills definition.fields fields :=
  steps_filled hc (Run.exec_guarded_ok.mp hx)

end Supply

/-! ### Late fields -/

/-- The late fields among these steps hold references to the beans that their tags pick, if they
pick some. -/
def Registry.LateFields (last : Registry) (steps : List FieldStep)
    (fields : List (String × Value)) : Prop :=
  ∀ name tag type, .autowire name tag ⟨.lazy, type⟩ ∈ steps → ∃ parsed positions,
    AutowireTag.parse tag = .ok parsed ∧ last.select type parsed = .ok positions ∧
      ∀ j ∈ positions, ∃ bean, last.beans[j]? = some bean ∧
        (name, .lazy (some ⟨j, bean.id, type⟩)) ∈ fields

/-- **Late fields hold references to the beans that their tags pick.** -/
theorem Registry.late_of_filled {steps : List FieldStep} {fields : List (String × Value)}
    (h : FieldStep.Filled last.Fills steps fields) : last.LateFields steps fields := by
  intro name tag type hm
  obtain ⟨value, hv, hfills⟩ := h.exists_field hm
  obtain ⟨parsed, htag, hgives⟩ := hfills (by rintro ⟨lazy, probe, ⟨⟩⟩)
  generalize hpoint : (⟨.lazy, type⟩ : Injection) = point at hgives
  cases hgives with
  | context => cases hpoint
  | @beans _ _ _ positions _ _ hselect hgift =>
    cases hpoint
    refine ⟨parsed, positions, htag, hselect, fun j hj => ?_⟩
    obtain ⟨target, honly, hvalue⟩ := Option.bind_eq_some_iff.mp hgift
    cases hvalue
    rw [← Registry.handles_bean (Registry.select_subset hselect)] at hj
    have hmem := @Registry.mem_handles last type positions
    generalize last.handles type positions = handles at honly hmem hj
    match handles with
    | [] => cases hj
    | [handle] =>
      cases honly
      obtain rfl := List.mem_singleton.mp hj
      obtain ⟨bean, hb, he⟩ := hmem List.mem_cons_self
      exact ⟨bean, hb, he ▸ hv⟩
    | _ :: _ :: _ => cases honly

end BeanContainer
