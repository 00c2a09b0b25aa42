/-
# The making of a bean

What `Wiring.build` does to a session when it succeeds, given that the maker of other beans keeps
it: the bean is initialized after all that it needs at once.

Key definitions: `Wiring.Makes`, `Wiring.supply`.
Key theorems: `Wiring.construct_ok`, `Wiring.session_settled`, `Wiring.complete_ok`,
`Wiring.build_ok`.
-/
import BeanContainer.Proofs.Container.Session

namespace BeanContainer
namespace Wiring

open Container (Grows Changes noCalls)
open Relation (ReflTransGen)

variable {last : Registry} {store : Store} {stack : List ℕ} {make : Maker} {c d : Container}
  {i : ℕ} {bean : Bean} {fault : Fault}

/-- The maker keeps sessions and grants the beans that it is asked for. -/
def Makes (last : Registry) (store : Store) (stack : List ℕ) (make : Maker) : Prop :=
  ∀ {lazy i c d}, i < last.beans.length → Session last store stack c →
    (make lazy i).exec c = (.ok (), d) →
      Session last store stack d ∧ Grows stack [] c d ∧
        c.Served last store stack (fun lazy' j => lazy' = lazy ∧ j = i) d

/-! ### Beans that are needed -/

theorem makes_all (h : Makes last store stack make) {lazy : Bool} {positions : List ℕ}
    (hp : ∀ j ∈ positions, j < last.beans.length) (hs : Session last store stack c)
    (hx : Run.exec (positions.forM (make lazy)) c = (.ok ⟨⟩, d)) :
    Session last store stack d ∧ Grows stack [] c d ∧
      c.Served last store stack (fun lazy' j => lazy' = lazy ∧ j ∈ positions) d := by
  induction positions generalizing c with
  | nil =>
    cases hx
    exact ⟨hs, .refl _ _, (Container.Aside.refl d).served fun _ _ hj => nomatch hj.2⟩
  | cons j rest ih =>
    rw [Run.forM_cons] at hx
    obtain ⟨_, c1, hj, hr⟩ := Run.bind_ok_inv hx
    obtain ⟨hs1, hg1, hv1⟩ := h (hp j List.mem_cons_self) hs hj
    obtain ⟨hs2, hg2, hv2⟩ := ih (fun k hk => hp k (List.mem_cons_of_mem j hk)) hs1 hr
    refine ⟨hs2, hg1.trans hg2, hv1.trans hv2 fun lazy' k => ?_⟩
    rw [List.mem_cons, and_or_left]

theorem lt_of_mem_find {selector : Selector} {j : ℕ} (h : j ∈ last.find selector) :
    j < last.beans.length := by
  obtain ⟨bean, hb, -⟩ := Registry.alive_of_mem_find h
  exact (List.getElem?_eq_some_iff.mp hb).1

theorem lt_of_select {type : TypeName} {tag : AutowireTag} {positions : List ℕ}
    (h : last.select type tag = .ok positions) : ∀ j ∈ positions, j < last.beans.length := by
  intro j hj
  obtain ⟨bean, hb, -⟩ := Registry.alive_of_select h hj
  exact (List.getElem?_eq_some_iff.mp hb).1

theorem exec_wireDependency (hs : Session last store stack c) (selector : Selector) :
    (wireDependency make selector).exec c =
      if last.find selector = [] then (.error (.lookup (.missingDependency selector.shown)), c)
      else Run.exec ((last.find selector).forM (make false)) c := by
  unfold wireDependency
  rw [Run.exec_get_bind, hs.kept.alike.find]
  rcases last.find selector with _ | ⟨j, rest⟩
  · rfl
  · rw [if_neg (List.cons_ne_nil j rest)]

theorem dependency_ok (h : Makes last store stack make) {selector : Selector}
    (hs : Session last store stack c)
    (hx : (wireDependency make selector).exec c = (.ok ⟨⟩, d)) :
    Session last store stack d ∧ Grows stack [] c d ∧
      c.Served last store stack (fun lazy j => lazy = false ∧ j ∈ last.find selector) d := by
  rw [exec_wireDependency hs] at hx
  split at hx
  · cases hx
  · exact makes_all h (fun j hj => lt_of_mem_find hj) hs hx

/-- The beans that a bean depends on are there once they are made. -/
theorem dependencies_ok (h : Makes last store stack make) {selectors : List Selector}
    (hs : Session last store stack c)
    (hx : Run.exec (selectors.forM (wireDependency make)) c = (.ok ⟨⟩, d)) :
    Session last store stack d ∧ Grows stack [] c d ∧
      c.Served last store stack
        (fun lazy j => lazy = false ∧ ∃ selector ∈ selectors, j ∈ last.find selector) d := by
  induction selectors generalizing c with
  | nil =>
    cases hx
    refine ⟨hs, .refl _ _, (Container.Aside.refl d).served ?_⟩
    rintro lazy j ⟨-, selector, hm, -⟩
    cases hm
  | cons selector rest ih =>
    rw [Run.forM_cons] at hx
    obtain ⟨_, c1, hone, hr⟩ := Run.bind_ok_inv hx
    obtain ⟨hs1, hg1, hv1⟩ := dependency_ok h hs hone
    obtain ⟨hs2, hg2, hv2⟩ := ih hs1 hr
    refine ⟨hs2, hg1.trans hg2, hv1.trans hv2 fun lazy j => ?_⟩
    rw [List.exists_mem_cons_iff, and_or_left]

/-! ### Beans that are injected -/

theorem exec_injector (hs : Session last store stack c) (type : TypeName) (tag : AutowireTag)
    (lazy : Bool) : (injector make type tag lazy).exec c =
      match last.select type tag with
      | .error reason => (.error (.lookup reason), c)
      | .ok positions =>
        match Run.exec (positions.forM (make lazy)) c with
        | (.ok _, d) => (.ok (d.registry.handles type positions), d)
        | (.error fault, d) => (.error fault, d) := by
  unfold injector
  rw [Run.exec_get_bind, hs.kept.alike.select]
  rcases last.select type tag with reason | positions
  · rfl
  · dsimp only
    rw [Run.exec_bind]
    rcases Run.exec (positions.forM (make lazy)) c with ⟨fault | u, d⟩ <;> rfl

/-- The injector of the maker, in sessions that grow from `c`. -/
def supply (h : Makes last store stack make) (c : Container) : Supply last store where
  injector := injector make
  stack := stack
  holds d := Session last store stack d ∧ Grows stack [] c d
  kept hd := hd.1.kept
  aside hd ha := ⟨hd.1.aside ha, hd.2.trans (ha.grows stack)⟩
  gives := by
    rintro want c1 d1 handles ⟨hs1, hg1⟩ hx
    rw [exec_injector hs1] at hx
    rcases hsel : last.select want.type want.tag with reason | positions
    · rw [hsel] at hx
      cases hx
    · rw [hsel] at hx
      dsimp only at hx
      rcases hf : Run.exec (positions.forM (make want.lazy)) c1 with ⟨fault | u, d2⟩
      · rw [hf] at hx
        cases hx
      · rw [hf] at hx
        cases hx
        obtain ⟨hs2, hg2, hv2⟩ := makes_all h (lt_of_select hsel) hs1 hf
        refine ⟨⟨hs2, hg1.trans hg2⟩, positions, rfl, ?_, hv2⟩
        rw [hs2.kept.alike.handles]
  refuses := by
    rintro want c1 reason ⟨hs1, -⟩ hsel
    rw [exec_injector hs1, hsel]

theorem ends_ok {α : Type} {demand : Demand} {c0 : Container} {a : α}
    (h : Makes last store stack make)
    (he : (supply h c0).Ends demand c ((.ok a : Except Fault α), d)) :
    Session last store stack d ∧ Grows stack [] c0 d ∧
      c.Served last store stack (last.Asks demand) d := by
  cases he with
  | done hd hv => exact ⟨hd.1, hd.2, hv⟩

/-! ### The source -/

theorem beside_constructorBody (definition : Definition) (callable : Callable)
    (actions : List Action) (values : List Value) (c : Container) :
    c.Beside (Script.exec (definition.constructorBody callable actions values) c).2 := by
  have ha := Action.beside_runAll ⟨definition.label, none, false⟩ actions c
  unfold Definition.constructorBody
  rw [Script.exec_bind]
  rcases hr : Script.exec (Action.runAll _ actions) c with ⟨upset | u, d⟩ <;> rw [hr] at ha
  · exact ha
  · exact ha.trans (Supply.beside_body callable values d)

theorem aside_constructorBody (definition : Definition) (callable : Callable)
    (actions : List Action) (values : List Value) (c : Container) :
    c.Aside (Script.exec (definition.constructorBody callable actions values) c).2 :=
  (beside_constructorBody definition callable actions values c).aside

/-- The code of a constructor, from the note of its call on. -/
theorem constructorBody_changes (definition : Definition) (callable : Callable)
    (actions : List Action) (values : List Value) (hb : c.bean? i = some bean) :
    Changes i bean (fun stage => if stage = .construct then [0] else []) c
      (Script.exec (Action.note (.called .construct i 0) >>= fun _ =>
        definition.constructorBody callable actions values) c).2 := by
  have hc := Container.changes_note_called .construct 0 hb
  have ha := (aside_constructorBody definition callable actions values
    (c.note (.called .construct i 0))).changes hc.here
  have ht := hc.trans ha
  simp only [noCalls, List.append_nil] at ht
  exact ht

theorem parameters_end (h : Makes last store stack make) (hs : Session last store stack c)
    (params : List Parameter) (arguments : Placement Arg) :
    (supply h c).Ends (Callable.valuesDemand (.byType (last.outlook store))
        (arguments.map (Arg.offer (last.outlook store))).tail params
        (arguments.map (Arg.offer (last.outlook store))).slots) c
      (Run.exec (Callable.values (.byType (injector make))
        (arguments.map (Arg.filler (injector make))).tail params
        (arguments.map (Arg.filler (injector make))).slots) c) :=
  Supply.meets_parameters (s := supply h c) params arguments c ⟨hs, .refl _ _⟩

/-- The source of the bean on top of the stack gives something. -/
theorem construct_ok (h : Makes last store stack make) (hs : Session last store stack c)
    (hi : i ∈ stack) (hb : c.bean? i = some { bean with status := .creating }) {value : Value}
    (hx : (construct (injector make) i bean).exec c = (.ok value, d)) :
    ∃ middle taken new, Session last store stack middle ∧ Grows stack [] c middle ∧
      Changes i { bean with status := .creating, taken } new middle d ∧
      (new .construct).length ≤ 1 ∧ new .init = [] ∧
      c.Served last store stack (last.Asks (bean.sourceDemand (last.outlook store))) middle := by
  unfold construct at hx
  unfold Definition.sourceDemand
  cases hsource : bean.source with
  | refused reason =>
    rw [hsource] at hx
    cases hx
  | object made =>
    rw [hsource] at hx
    dsimp only at hx
    by_cases ht : bean.taken = true
    · rw [if_pos ht] at hx
      cases hx
    · rw [if_neg ht] at hx
      cases hx
      refine ⟨c, true, noCalls, hs, .refl _ _,
        Container.changes_modifyBean (fun bean => { bean with taken := true }) hb, Nat.zero_le _,
        rfl, (Container.Aside.refl c).served fun _ _ => Registry.not_asks_given⟩
  | constructor callable arguments actions =>
    rw [hsource] at hx
    dsimp only [Callable.apply] at hx
    obtain ⟨values, middle, hv, hscript⟩ := Run.bind_ok_inv (Run.exec_guarded_ok.mp hx)
    have he := parameters_end h hs callable.params arguments
    rw [hv] at he
    obtain ⟨hs1, hg1, hv1⟩ := ends_ok h he
    have hb1 := (hg1.stack i hi).trans hb
    have hc := constructorBody_changes bean.toDefinition callable actions values hb1
    rw [Run.exec_ofScript] at hscript
    obtain ⟨-, rfl⟩ := Prod.mk.inj hscript
    refine ⟨middle, bean.taken, _, hs1, hg1, hc, Nat.le_refl 1, rfl, hv1.congr fun lazy j => ?_⟩
    exact Registry.asks_and.trans (or_iff_left Registry.not_asks_given)

/-! ### The last steps -/

theorem exec_setStatus_bind {α : Type} (i : ℕ) (status : Status) (next : PUnit → Run α)
    (c : Container) : Run.exec (setStatus i status >>= next) c =
      Run.exec (next ⟨⟩) (c.modifyBean i fun bean => { bean with status }) := rfl

theorem exec_keep {component : Component} (hb : c.bean? i = some bean)
    (hn : bean.component = none) : (keep i component).exec c =
      (.ok (), c.modifyBean i fun bean => { bean with component := some component }) := by
  unfold keep
  rw [Run.exec_withBean _ hb, hn]
  rfl

/-- Init hooks that succeed run once each, in their order. -/
theorem runInit_ok {owner : String} {scene : Scene} {step : ℕ} {hooks : List (List Action)}
    (hb : c.bean? i = some bean)
    (hx : (runInit i owner scene step hooks).exec c = (.ok (), d)) :
    Changes i bean (fun stage => if stage = .init then List.range' step hooks.length else [])
      c d := by
  induction hooks generalizing step c with
  | nil =>
    cases hx
    have hc := (Container.Aside.refl d).changes hb
    have hn : noCalls = fun stage => if stage = Stage.init then List.range' step 0 else [] := by
      funext stage
      simp [noCalls]
    rw [hn] at hc
    exact hc
  | cons hook rest ih =>
    unfold runInit at hx
    rw [Run.exec_modify_bind] at hx
    obtain ⟨_, middle, hh, hr⟩ := Run.bind_ok_inv hx
    have hc1 := Container.changes_note_called .init step hb
    have ha := Action.aside_runAll scene hook (c.note (.called .init i step))
    unfold runHook at hh
    rw [Run.exec_ofScript] at hh
    obtain ⟨-, rfl⟩ := Prod.mk.inj hh
    have hc2 := hc1.trans (ha.changes hc1.here)
    have hc3 := hc2.trans (ih hc2.here hr)
    refine ⟨hc3.store, hc3.phase, hc3.order, hc3.entries, hc3.here, hc3.others, fun stage => ?_,
      hc3.initializations⟩
    rw [hc3.trace]
    by_cases hs : stage = .init <;> simp [hs, noCalls, List.range'_succ]

section

variable {component : Component} {owner : String} {scene : Scene} {hooks : List (List Action)}

/-- What is left to do with a bean whose fields are wired. -/
def settle (i : ℕ) (component : Component) (owner : String) (scene : Scene)
    (hooks : List (List Action)) : Run Unit := do
  keep i component
  setStatus i .wired
  runInit i owner scene 0 hooks
  setStatus i .initialized
  modify fun container =>
    { container.note (.initialized i) with order := container.order ++ [i] }

theorem settle_ok (hb : c.bean? i = some bean)
    (hn : bean.component = none)
    (hx : (settle i component owner scene hooks).exec c = (.ok (), d)) :
    ∃ d', Changes i { bean with component := some component, status := .initialized }
        (fun stage => if stage = .init then List.range hooks.length else []) c d' ∧
      d = d'.finished i := by
  unfold settle at hx
  rw [Run.exec_bind_ok (exec_keep hb hn), exec_setStatus_bind] at hx
  have hc1 := Container.changes_modifyBean
    (fun bean => { bean with component := some component }) hb
  have hc2 := hc1.trans (Container.changes_modifyBean
    (fun bean => { bean with status := .wired }) hc1.here)
  obtain ⟨_, middle, hinit, hlast⟩ := Run.bind_ok_inv hx
  have hc3 := hc2.trans (runInit_ok hc2.here hinit)
  have hc4 := hc3.trans (Container.changes_modifyBean
    (fun bean => { bean with status := .initialized }) hc3.here)
  cases hlast
  refine ⟨_, ?_, rfl⟩
  refine ⟨hc4.store, hc4.phase, hc4.order, hc4.entries, hc4.here, hc4.others, fun stage => ?_,
    hc4.initializations⟩
  rw [hc4.trace]
  simp [noCalls, List.range_eq_range']

end

/-! ### The making as a whole -/

theorem complete_eq (inject : Injector) (i : ℕ) (bean : Bean) : complete inject i bean = (do
    setStatus i .creating
    let made ← construct inject i bean
    setStatus i .created
    let fields ← bean.toDefinition.wireFields inject bean.id
    settle i ⟨made, fields⟩ bean.id ⟨bean.label, some fields, true⟩ bean.init) := rfl

/-- Searches see no difference between the statuses of beans that take part. -/
theorem standing_status (bean : Bean) {status : Status}
    (hb : bean.status ≠ .deleted ∧ bean.status ≠ .default)
    (hs : status ≠ .deleted ∧ status ≠ .default) (taken : Bool) (component : Option Component) :
    ({ bean with status, taken, component } : Bean).standing = bean.standing := by
  have h : ∀ s : Status, s ≠ .deleted ∧ s ≠ .default →
      (s != .deleted) = true ∧ (s == .default) = false :=
    fun s h => ⟨bne_iff_ne.mpr h.1, beq_false_of_ne h.2⟩
  unfold Bean.standing Bean.isAlive Bean.isUndecided
  rw [(h _ hb).1, (h _ hb).2, (h _ hs).1, (h _ hs).2]

/-- The construction of a bean begins. -/
theorem session_creating (hs : Session last store stack c) (hi : i ∈ stack)
    (hb : c.bean? i = some bean) (hr : bean.status = .resolved) :
    Session last store stack (c.modifyBean i fun bean => { bean with status := .creating }) ∧
      Changes i { bean with status := .creating } noCalls c
        (c.modifyBean i fun bean => { bean with status := .creating }) ∧
      last.beans[i]? = some bean := by
  have hc := Container.changes_modifyBean (fun bean => { bean with status := .creating }) hb
  cases hs.fits i bean hb with
  | waiting first status order calls =>
    refine ⟨?_, hc, first⟩
    have hcalls : ∀ stage, Container.calls
        (c.modifyBean i fun bean => { bean with status := .creating }) stage i = [] := by
      intro stage
      rw [hc.calls, calls stage]
      simp [noCalls]
    have hstanding : ({ bean with status := .creating } : Bean).standing = bean.standing :=
      standing_status bean (by rw [hr]; decide) (by decide) _ _
    refine hs.change hb hstanding hc ?_
    refine .making (.inl rfl) hi (hc.order ▸ order) (hs.ready.untouched i bean first).2 ?_ ?_ ?_
    · exact fun _ => hcalls .construct
    · rw [hcalls]
      exact Nat.zero_le _
    · exact hcalls .init
  | dropped _ status | made status =>
    rw [hr] at status
    cases status
  | making status =>
    rw [hr] at status
    rcases status with hs | hs <;> cases hs

/-- The bean on top of the stack is constructed. -/
theorem session_created {middle : Container} {taken : Bool} {new : Stage → List ℕ}
    (hs : Session last store stack middle) (hi : i ∈ stack)
    (hb : middle.bean? i = some { bean with status := .creating })
    (hc : Changes i { bean with status := .creating, taken } new middle c)
    (hn : (new .construct).length ≤ 1) (hn' : new .init = []) :
    Session last store stack (c.modifyBean i fun bean => { bean with status := .created }) ∧
      Changes i { bean with status := .created, taken } new middle
        (c.modifyBean i fun bean => { bean with status := .created }) := by
  have hc' := hc.trans (Container.changes_modifyBean
    (fun bean => { bean with status := .created }) hc.here)
  simp only [noCalls, List.append_nil] at hc'
  refine ⟨?_, hc'⟩
  obtain ⟨horder, hcomponent, hinit⟩ := hs.on_stack hi hb
  have hfresh : middle.calls .construct i = [] := by
    cases hs.fits i _ hb with
    | waiting _ status | dropped _ status | made status => cases status
    | making _ _ _ _ fresh => exact fresh rfl
  have hcreating : Status.creating ≠ .deleted ∧ Status.creating ≠ .default := by decide
  have hstanding : ({ bean with status := .created, taken } : Bean).standing =
      ({ bean with status := .creating } : Bean).standing :=
    standing_status { bean with status := .creating } hcreating (by decide) _ _
  refine hs.change hb hstanding hc' ?_
  refine .making (.inr rfl) hi (hc'.order ▸ horder) hcomponent ?_ ?_ ?_
  · intro he
    cases he
  · rw [hc'.calls, if_pos rfl, hfresh]
    exact hn
  · rw [hc'.calls, if_pos rfl, hinit, hn']
    rfl

/-- The bean on top of the stack is initialized, once all that it needs is granted. -/
theorem session_settled {component : Component} {owner : String} {scene : Scene}
    (hs : Session last store (stack ++ [i]) c) (hb : c.bean? i = some bean)
    (hr : bean.status = .created)
    (hfilled : FieldStep.Filled last.Fills bean.fields component.fields)
    (hneeds : ∀ lazy j, last.Needs store lazy i j → c.Granted (stack ++ [i]) lazy j)
    (hx : (settle i component owner scene bean.init).exec c = (.ok (), d)) :
    ∃ c', d = c'.finished i ∧ c'.order = c.order ∧ Session last store stack d ∧
      Grows stack [] c c' := by
  obtain ⟨hstack, -⟩ := hs.nodup_below
  obtain ⟨-, hcomponent, hcalls⟩ := hs.on_stack List.mem_concat_self hb
  have hconstructed : (c.calls .construct i).length ≤ 1 := by
    cases hs.fits i _ hb with
    | waiting _ status | dropped _ status | made status =>
      rw [hr] at status
      cases status
    | making _ _ _ _ _ constructed => exact constructed
  obtain ⟨c', hc, rfl⟩ := settle_ok hb hcomponent hx
  have hstanding : ({ bean with status := .initialized, component := some component } :
      Bean).standing = bean.standing :=
    standing_status bean (by rw [hr]; decide) (by decide) _ _
  have hconstructed' : (c'.calls .construct i).length ≤ 1 := by
    rw [hc.calls, if_pos rfl]
    simpa using hconstructed
  have hinit : c'.calls .init i = List.range bean.init.length := by
    rw [hc.calls, if_pos rfl, hcalls]
    rfl
  refine ⟨c', rfl, hc.order, ?_, hc.grows hstack⟩
  refine hs.finish hb hstanding hc rfl rfl hconstructed' hinit ?_ hneeds
  intro made hm
  cases hm
  exact hfilled

/-- The fields of the bean on top of the stack are wired. -/
theorem fields_ok (h : Makes last store stack make) (hs : Session last store stack c)
    {owner : String} {definition : Definition} {fields : List (String × Value)}
    (hx : (definition.wireFields (injector make) owner).exec c = (.ok fields, d)) :
    Session last store stack d ∧ Grows stack [] c d ∧
      c.Served last store stack
        (last.Asks (FieldStep.demands (last.outlook store) definition definition.fields)) d := by
  have he := Supply.meets_steps (s := supply h c) owner definition definition.fields c
    ⟨hs, .refl _ _⟩
  have hx' : (FieldStep.runAll (injector make) owner definition definition.fields).exec c =
      (.ok fields, d) := Run.exec_guarded_ok.mp hx
  change (supply h c).Ends _ c ((FieldStep.runAll (injector make) owner definition
    definition.fields).exec c) at he
  rw [hx'] at he
  exact ends_ok h he

theorem isAlive_of_resolved (h : bean.status = .resolved) : bean.isAlive = true := by
  unfold Bean.isAlive
  rw [h]
  rfl

/-- **A bean is initialized after all that it needs.** What it wants late may be under construction
then. Meanwhile no beans are made but those that it leads to. -/
theorem complete_ok (h : Makes last store (stack ++ [i]) make)
    (hs : Session last store (stack ++ [i]) c) (hb : c.bean? i = some bean)
    (hr : bean.status = .resolved)
    (hdep : ∀ selector ∈ bean.dependsOn, ∀ j ∈ last.find selector, c.Present j)
    (hx : (complete (injector make) i bean).exec c = (.ok (), d)) :
    ∃ c', d = c'.finished i ∧ Session last store stack d ∧ Grows stack [] c c' ∧
      ∀ k ∈ c'.order, k ∈ c.order ∨
        ∃ j, last.Edge store i j ∧ ReflTransGen (last.Edge store) j k := by
  have hi : i ∈ stack ++ [i] := List.mem_concat_self
  have hstack : i ∉ stack := hs.nodup_below.1
  rw [complete_eq, exec_setStatus_bind] at hx
  obtain ⟨hs1, hc1, hfirst⟩ := session_creating hs hi hb hr
  obtain ⟨value, c2, hconstruct, hx⟩ := Run.bind_ok_inv hx
  obtain ⟨middle, taken, new, hs2, hg2, hc2, hn, hn', hv2⟩ :=
    construct_ok h hs1 hi hc1.here hconstruct
  rw [exec_setStatus_bind] at hx
  obtain ⟨hs3, hc3⟩ := session_created hs2 hi ((hg2.stack i hi).trans hc1.here) hc2 hn hn'
  obtain ⟨fields, c4, hfields, hx⟩ := Run.bind_ok_inv hx
  obtain ⟨hs4, hg4, hv4⟩ := fields_ok h hs3 hfields
  have hb4 := (hg4.stack i hi).trans hc3.here
  have hfilled : FieldStep.Filled last.Fills bean.fields fields :=
    Supply.fields_filled (s := supply h _) ⟨hs3, .refl _ _⟩ hfields
  -- the order only grows, so what was granted at an earlier step still is
  have ho2 : middle.order ⊆ c4.order := by
    rw [← hc3.order]
    exact hg4.order.subset
  have ho0 : c.order ⊆ c4.order := by
    rw [← hc1.order]
    exact fun j hj => ho2 (hg2.order.subset hj)
  have hneeds : ∀ lazy j, last.Needs store lazy i j → c4.Granted (stack ++ [i]) lazy j := by
    rintro lazy j ⟨first, hf, -, hneed⟩
    rw [hfirst] at hf
    cases hf
    rcases hneed with ⟨-, selector, hsel, hj⟩ | hask
    · exact .inl (hs.present_mono hs4 ho0 (hdep selector hsel j hj))
    · rcases Registry.asks_and.mp hask with hask | hask
      · exact hs2.granted_mono hs4 ho2 (hv2.grants lazy j hask)
      · exact hv4.grants lazy j hask
  have hedge : ∀ lazy j, last.Asks (bean.demand (last.outlook store)) lazy j →
      last.Edge store i j :=
    fun lazy j hask => ⟨lazy, bean, hfirst, isAlive_of_resolved hr, .inr hask⟩
  obtain ⟨c', hd, ho, hs5, hg5⟩ := session_settled hs4 hb4 rfl hfilled hneeds hx
  refine ⟨c', hd, hs5, ?_, fun k hk => ?_⟩
  · exact (hc1.grows hstack).trans (hg2.of_append.trans ((hc3.grows hstack).trans
      (hg4.of_append.trans hg5)))
  · rw [ho] at hk
    rcases hv4.only k hk with hk | ⟨lazy, j, hask, hlead⟩
    · rw [hc3.order] at hk
      rcases hv2.only k hk with hk | ⟨lazy, j, hask, hlead⟩
      · rw [hc1.order] at hk
        exact .inl hk
      · exact .inr ⟨j, hedge lazy j (Registry.asks_and.mpr (.inl hask)), hlead⟩
    · exact .inr ⟨j, hedge lazy j (Registry.asks_and.mpr (.inr hask)), hlead⟩

/-- **The making of a bean keeps sessions.** The bean is there at the end, and it was entered
before any other one. -/
theorem build_ok (h : Makes last store (stack ++ [i]) make) (hs : Session last store stack c)
    (hb : c.bean? i = some bean) (hr : bean.status = .resolved) (hi : i ∉ stack) {lazy : Bool}
    (hx : (build make i).exec c = (.ok (), d)) :
    Session last store stack d ∧ Grows stack [] c d ∧
      c.Served last store stack (fun lazy' j => lazy' = lazy ∧ j = i) d ∧ Container.Opens i c d := by
  have hs1 := hs.push hb hr hi
  unfold build at hx
  rw [Run.exec_withBean _ hb, Run.exec_modify_bind] at hx
  obtain ⟨_, c1, hdep, hx⟩ := Run.bind_ok_inv hx
  obtain ⟨hs2, hg2, hv2⟩ := dependencies_ok h hs1 hdep
  have hb2 : c1.bean? i = some bean :=
    (hg2.stack i List.mem_concat_self).trans hb
  rw [Run.exec_withBean _ hb2] at hx
  have hpresent : ∀ selector ∈ bean.dependsOn, ∀ j ∈ last.find selector, c1.Present j :=
    fun selector hsel j hj => (hv2.grants false j ⟨rfl, selector, hsel, hj⟩).present
  obtain ⟨c', rfl, hs3, hg3, honly⟩ := complete_ok h hs2 hb2 hr hpresent hx
  have hfirst := (session_creating hs1 List.mem_concat_self hb hr).2.2
  have hg : Grows stack [] c (c'.finished i) :=
    ((Container.grows_entered stack c i).trans (hg2.of_append.trans hg3)).finish
  have hprefix : (c.note (.entered i)).entries <+: (c'.finished i).entries := by
    rw [Container.entries_finished]
    exact hg2.entries.trans hg3.entries
  refine ⟨hs3, hg, ⟨fun lazy' j hj => hs.granted_mono hs3 hg.order.subset hj, ?_, fun k hk => ?_⟩,
    Container.opens_of_prefix hprefix⟩
  · rintro lazy' j ⟨-, rfl⟩
    exact .inl (hs3.present_iff.mpr List.mem_concat_self)
  · rcases List.mem_append.mp hk with hk | hk
    · rcases honly k hk with hk | ⟨j, hj, hlead⟩
      · rcases hv2.only k hk with hk | ⟨lazy', j, ⟨-, selector, hsel, hj⟩, hlead⟩
        · exact .inl hk
        · have hneed : last.DependsOn i j :=
            ⟨bean, hfirst, isAlive_of_resolved hr, selector, hsel, hj⟩
          exact .inr ⟨lazy, i, ⟨rfl, rfl⟩, hlead.head ⟨false, hneed.needs store⟩⟩
      · exact .inr ⟨lazy, i, ⟨rfl, rfl⟩, hlead.head hj⟩
    · exact .inr ⟨lazy, i, ⟨rfl, rfl⟩, List.mem_singleton.mp hk ▸ .refl⟩

end Wiring
end BeanContainer
