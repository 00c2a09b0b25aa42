/-
# The making of a bean that fails

What becomes of a session where `Wiring.build` fails, given that the maker of other beans keeps it.
One step in the making of the bean fails (`Wiring.Slip`). Either what it demands does not hold, and
then the fault is the bean's own and only the bean itself is left as it was at that moment; or a bean
is refused that it asks for. Which beans it asks for depends on how far it has come
(`Bean.Seeks`).

Key definitions: `Bean.Seeks`, `Wiring.Slip`, `Wiring.Quits`, `Wiring.Refuses`, `Wiring.Fails`,
`Wiring.Breaks`.
Key theorems: `Wiring.construct_error`, `Wiring.complete_error`, `Wiring.build_error`.
-/
import BeanContainer.Proofs.Container.Making

namespace BeanContainer

/-- The bean asks for the one at `j`, by how far it has come: as one that it depends on, as an
argument of its constructor, or for a field. -/
def Bean.Seeks (last : Registry) (store : Store) (bean : Bean) (lazy : Bool) (j : ℕ) : Prop :=
  match bean.status with
  | .resolved => lazy = false ∧ ∃ selector ∈ bean.dependsOn, j ∈ last.find selector
  | .creating => last.Asks (bean.sourceDemand (last.outlook store)) lazy j
  | .created => last.Asks
      (FieldStep.demands (last.outlook store) bean.toDefinition bean.fields) lazy j
  | _ => False

theorem Bean.Seeks.isAlive {last : Registry} {store : Store} {bean : Bean} {lazy : Bool} {j : ℕ}
    (h : bean.Seeks last store lazy j) : bean.isAlive = true := by
  unfold Seeks at h
  unfold Bean.isAlive
  split at h
  · next hs => rw [hs]; rfl
  · next hs => rw [hs]; rfl
  · next hs => rw [hs]; rfl
  · cases h

/-- A stage takes panics for failures of its bean. -/
theorem Fault.isFailure_staged {fault : Fault} (h : fault.isLocal = true) (owner : String)
    (stage : Stage) : (fault.staged owner stage).IsFailure owner := by
  cases fault with
  | lifecycle => exact ⟨.inl (eq_of_beq h), rfl⟩
  | panic => exact ⟨.inr rfl, rfl⟩
  | conditionFailed | invalidBean | wiring | cancelled | cycle => cases h
  | _ => exact ⟨trivial, rfl⟩

theorem FieldStep.asks_of_mem {registry : Registry} {outlook : Outlook} {definition : Definition}
    {step : FieldStep} {steps : List FieldStep} (hm : step ∈ steps) {lazy : Bool} {j : ℕ}
    (h : registry.Asks (step.demand outlook definition) lazy j) :
    registry.Asks (demands outlook definition steps) lazy j := by
  induction steps with
  | nil => cases hm
  | cons first rest ih =>
    rcases List.mem_cons.mp hm with rfl | hm
    · exact Registry.asks_and.mpr (.inl h)
    · exact Registry.asks_and.mpr (.inr (ih hm))

theorem FieldStep.met_of_mem {outlook : Outlook} {definition : Definition} {step : FieldStep}
    {steps : List FieldStep} (hm : step ∈ steps) (h : (demands outlook definition steps).met) :
    (step.demand outlook definition).met := by
  induction steps with
  | nil => cases hm
  | cons first rest ih =>
    rcases List.mem_cons.mp hm with rfl | hm
    · exact h.1
    · exact ih hm h.2

namespace Wiring

open Container (Grows Changes)

variable {last : Registry} {store : Store} {stack : List ℕ} {make : Maker} {c d m : Container}
  {i : ℕ} {bean now : Bean} {fault : Fault} {owner : String} {met met' : Prop}
  {asks asks' : Bool → ℕ → Prop}

/-- A step in the making of the bean at `i` fails, in `m`, and ends in `d`. `bean` is the bean as it
was decided. -/
inductive Slip (make : Maker) (i : ℕ) (bean : Bean) (m : Container) (fault : Fault)
    (d : Container) : Prop
  | dependency {selector : Selector} : m.bean? i = some bean → selector ∈ bean.dependsOn →
      (wireDependency make selector).exec m = (.error fault, d) → Slip make i bean m fault d
  | source : m.bean? i = some { bean with status := .creating } →
      (construct (injector make) i bean).exec m = (.error fault, d) → Slip make i bean m fault d
  | field {taken : Bool} {step : FieldStep} :
      m.bean? i = some { bean with status := .created, taken } → step ∈ bean.fields →
      (Run.guarded bean.id .wire (step.run (injector make) bean.id bean.toDefinition)).exec m =
        (.error fault, d) → Slip make i bean m fault d
  | hook {taken : Bool} {component : Component} {hook : List Action} :
      m.bean? i = some { bean with status := .wired, taken, component := some component } →
      hook ∈ bean.init →
      (runHook bean.id .init ⟨bean.label, some component.fields, true⟩ hook).exec m =
        (.error fault, d) → Slip make i bean m fault d

/-- The making of the bean on top of the stack broke off in a session that grew from `c`: what it
leaves behind is of this bean. -/
structure Quits (last : Registry) (store : Store) (stack : List ℕ) (i : ℕ) (c d : Container) :
    Prop where
  kept : d.Kept last store
  left : ∃ m bean new, Session last store (stack ++ [i]) m ∧ Grows stack [] c m ∧
    Changes i bean new m d

/-- The maker refuses the bean at `j`, in a session that grew from `c`; the fault may be wrapped as
one of a stage. -/
def Refuses (last : Registry) (store : Store) (stack : List ℕ) (make : Maker) (lazy : Bool) (j : ℕ)
    (c : Container) (fault : Fault) (d : Container) : Prop :=
  ∃ middle cause, Session last store stack middle ∧ Grows stack [] c middle ∧
    (make lazy j).exec middle = (.error cause, d) ∧
    (fault = cause ∨ ∃ reason, cause = .panic reason)

/-- Why the bean on top of the stack fails: what it demands does not hold, and the fault is a failure
of its own; or a bean is refused that it asks for. -/
inductive Fails (last : Registry) (store : Store) (stack : List ℕ) (make : Maker) (i : ℕ)
    (owner : String) (met : Prop) (asks : Bool → ℕ → Prop) (c : Container) (fault : Fault)
    (d : Container) : Prop
  | own : ¬ met → fault.IsFailure owner → Quits last store stack i c d →
      Fails last store stack make i owner met asks c fault d
  | refused {lazy : Bool} {j : ℕ} : asks lazy j →
      Refuses last store (stack ++ [i]) make lazy j c fault d →
      Fails last store stack make i owner met asks c fault d

theorem Fails.imp (h : Fails last store stack make i owner met asks c fault d) (hm : met' → met)
    (ha : ∀ lazy j, asks lazy j → asks' lazy j) :
    Fails last store stack make i owner met' asks' c fault d := by
  cases h with
  | own hn ho hq => exact .own (fun h => hn (hm h)) ho hq
  | refused hj hr => exact .refused (ha _ _ hj) hr

/-! ### Breaking off -/

theorem Quits.of_changes {bean' : Bean} {new : Stage → List ℕ}
    (hs : Session last store (stack ++ [i]) m) (hg : Grows stack [] c m)
    (hb : m.bean? i = some bean) (hst : bean'.standing = bean.standing)
    (hc : Changes i bean' new m d) : Quits last store stack i c d :=
  ⟨Session.kept_changes hs.kept hb hst hc, m, bean', new, hs, hg, hc⟩

theorem Quits.of_session (hs : Session last store (stack ++ [i]) d) (hg : Grows stack [] c d) :
    Quits last store stack i c d := by
  obtain ⟨bean, hb⟩ := hs.bean_of_lt (hs.stack_lt i List.mem_concat_self)
  exact .of_changes hs hg hb rfl ((Container.Aside.refl d).changes hb)

theorem Quits.trans (hg : Grows stack [] c m) (h : Quits last store stack i m d) :
    Quits last store stack i c d := by
  obtain ⟨m', bean, new, hs, hg', hc⟩ := h.left
  exact ⟨h.kept, m', bean, new, hs, hg.trans hg', hc⟩

/-- The beans on the stack below stay as they were. -/
theorem Quits.grows (h : Quits last store stack i c d) : Grows stack [] c d := by
  obtain ⟨m, bean, new, hs, hg, hc⟩ := h.left
  exact hg.trans (hc.grows hs.nodup_below.1)

/-! ### Requests -/

theorem refuses_one (h : Makes last store stack make) {lazy : Bool} {positions : List ℕ}
    (hp : ∀ j ∈ positions, j < last.beans.length) (hs : Session last store stack c)
    (hx : Run.exec (positions.forM (make lazy)) c = (.error fault, d)) :
    ∃ j ∈ positions, Refuses last store stack make lazy j c fault d := by
  obtain ⟨front, j, back, m, rfl, hfront, hone⟩ := Run.forM_error hx
  obtain ⟨hs', hg', -⟩ := makes_all h (fun k hk => hp k (List.mem_append_left _ hk)) hs hfront
  exact ⟨j, by simp, m, fault, hs', hg', hone, .inl rfl⟩

/-- What asks for beans and fails as a part of a stage. -/
theorem fails_of_ends {α : Type} {demand : Demand} {c0 : Container}
    (h : Makes last store (stack ++ [i]) make) (owner : String) (stage : Stage)
    (he : (supply h c0).Ends demand c ((.error fault : Except Fault α), d)) :
    Fails last store stack make i owner demand.met (last.Asks demand) c0
      (fault.staged owner stage) d := by
  cases he with
  | unmet hm hl hd =>
    exact .own hm (Fault.isFailure_staged hl owner stage) (.of_session hd.1 hd.2.of_append)
  | @refused _ cause _ middle want positions hw hh hsel hx hf =>
    obtain ⟨hs1, hg1⟩ := hh
    change (injector make want.type want.tag want.lazy).exec middle = _ at hx
    rw [exec_injector hs1, hsel] at hx
    dsimp only at hx
    rcases hr : Run.exec (positions.forM (make want.lazy)) middle with ⟨cause' | u, d2⟩
    · rw [hr] at hx
      cases hx
      obtain ⟨j, hj, m, cause', hs2, hg2, hx2, hf2⟩ := refuses_one h (lt_of_select hsel) hs1 hr
      have hasked : last.Asks demand want.lazy j := by
        refine ⟨want, hw, rfl, ?_⟩
        unfold Registry.picks
        rw [hsel]
        exact hj
      refine .refused hasked ⟨m, cause', hs2, hg1.trans hg2, hx2, ?_⟩
      -- a panic on the way may be replaced, any other fault stays
      rcases hf2 with rfl | hpanic
      · rcases hf with rfl | hpanic
        · cases fault with
          | panic reason => exact .inr ⟨reason, rfl⟩
          | _ => exact .inl rfl
        · exact .inr hpanic
      · exact .inr hpanic
    · rw [hr] at hx
      cases hx

/-! ### Steps that fail -/

theorem dependency_error (h : Makes last store (stack ++ [i]) make)
    (hs : Session last store (stack ++ [i]) c) {selector : Selector}
    (hx : (wireDependency make selector).exec c = (.error fault, d)) :
    Fails last store stack make i owner (last.find selector ≠ [])
      (fun lazy j => lazy = false ∧ j ∈ last.find selector) c fault d := by
  rw [exec_wireDependency hs] at hx
  split at hx
  · next he =>
    cases hx
    exact .own (fun hn => hn he) ⟨trivial, rfl⟩ (.of_session hs (.refl _ _))
  · obtain ⟨j, hj, hr⟩ := refuses_one h (fun j hj => lt_of_mem_find hj) hs hx
    exact .refused ⟨rfl, hj⟩ hr

/-- The source of the bean on top of the stack fails. -/
theorem construct_error (h : Makes last store (stack ++ [i]) make)
    (hs : Session last store (stack ++ [i]) c)
    (hb : c.bean? i = some { bean with status := .creating }) (ht : bean.taken = false)
    (hx : (construct (injector make) i bean).exec c = (.error fault, d)) :
    Fails last store stack make i bean.id (bean.sourceDemand (last.outlook store)).met
      (last.Asks (bean.sourceDemand (last.outlook store))) c fault d := by
  unfold construct at hx
  unfold Definition.sourceDemand
  cases hsource : bean.source with
  | refused reason =>
    rw [hsource] at hx
    cases hx
    exact .own id ⟨trivial, rfl⟩ (.of_session hs (.refl _ _))
  | object made =>
    rw [hsource] at hx
    dsimp only at hx
    rw [ht] at hx
    cases hx
  | constructor callable arguments actions =>
    rw [hsource] at hx
    dsimp only [Callable.apply] at hx
    rw [Run.exec_guarded] at hx
    generalize hr : Run.exec _ c = result at hx
    obtain ⟨outcome, d'⟩ := result
    rcases outcome with cause | value
    · obtain ⟨hf, rfl⟩ := Prod.mk.inj hx
      cases hf
      have he := parameters_end h hs callable.params arguments
      rcases Run.bind_error_inv hr with hv | ⟨values, middle, hv, hscript⟩ <;> rw [hv] at he
      · exact (fails_of_ends h bean.id .construct he).imp (fun hd => hd.1) fun lazy j hj =>
          Registry.asks_and.mpr (.inl hj)
      · obtain ⟨hs1, hg1, -⟩ := ends_ok h he
        have hb1 := (hg1.stack i List.mem_concat_self).trans hb
        have hc1 := constructorBody_changes bean.toDefinition callable actions values hb1
        rw [Run.exec_ofScript] at hscript
        obtain ⟨hupset, rfl⟩ := Prod.mk.inj hscript
        refine .own (fun hd => ?_) ?_ (.of_changes hs1 hg1.of_append hb1 rfl hc1)
        · obtain ⟨value, d1, hsucc⟩ := hd.2 values (middle.note (.called .construct i 0))
            hs1.kept.store hs1.kept.phase
          change (Except.mapError _ (Script.exec (Action.note (.called .construct i 0) >>= fun _ =>
            bean.constructorBody callable actions values) middle).1) = _ at hupset
          rw [show Script.exec (Action.note (.called .construct i 0) >>= fun _ =>
            bean.constructorBody callable actions values) middle = (.ok value, d1) from hsucc]
            at hupset
          cases hupset
        · generalize (Script.exec _ middle).1 = upset at hupset
          cases upset with
          | error upset =>
            cases hupset
            exact ⟨.inr rfl, rfl⟩
          | ok value => cases hupset
    · cases hx

/-- The wiring of fields fails at one of its steps. -/
theorem steps_error (h : Makes last store stack make) (hs : Session last store stack c)
    {definition : Definition} {steps : List FieldStep}
    (hx : (FieldStep.runAll (injector make) owner definition steps).exec c = (.error fault, d)) :
    ∃ step ∈ steps, ∃ m, Session last store stack m ∧ Grows stack [] c m ∧
      (step.run (injector make) owner definition).exec m = (.error fault, d) := by
  induction steps generalizing c with
  | nil => cases hx
  | cons step rest ih =>
    unfold FieldStep.runAll at hx
    rcases Run.bind_error_inv hx with hone | ⟨field, m, hone, hrest⟩
    · exact ⟨step, List.mem_cons_self, c, hs, .refl _ _, hone⟩
    · have he := Supply.meets_step (s := supply h c) owner definition step c ⟨hs, .refl _ _⟩
      change (supply h c).Ends _ c ((step.run (injector make) owner definition).exec c) at he
      rw [hone] at he
      obtain ⟨hs1, hg1, -⟩ := ends_ok h he
      rcases Run.bind_error_inv hrest with hrest | ⟨_, _, -, hlast⟩
      · obtain ⟨step', hm, m', hs2, hg2, hx2⟩ := ih hs1 hrest
        exact ⟨step', List.mem_cons_of_mem step hm, m', hs2, hg1.trans hg2, hx2⟩
      · cases hlast

theorem step_error (h : Makes last store (stack ++ [i]) make)
    (hs : Session last store (stack ++ [i]) c) {definition : Definition} {step : FieldStep}
    (hx : (step.run (injector make) owner definition).exec c = (.error fault, d)) :
    Fails last store stack make i owner (step.demand (last.outlook store) definition).met
      (last.Asks (step.demand (last.outlook store) definition)) c (fault.staged owner .wire) d := by
  have he := Supply.meets_step (s := supply h c) owner definition step c ⟨hs, .refl _ _⟩
  change (supply h c).Ends _ c ((step.run (injector make) owner definition).exec c) at he
  rw [hx] at he
  exact fails_of_ends h owner .wire he

/-- Init hooks fail at one of them; those before it were called, and so was this one. -/
theorem runInit_error {scene : Scene} {step : ℕ} {hooks : List (List Action)}
    (hb : c.bean? i = some bean)
    (hx : (runInit i owner scene step hooks).exec c = (.error fault, d)) :
    ∃ hook ∈ hooks, ∃ m new, Changes i bean new c m ∧
      (runHook owner .init scene hook).exec m = (.error fault, d) := by
  induction hooks generalizing step c with
  | nil => cases hx
  | cons hook rest ih =>
    unfold runInit at hx
    rw [Run.exec_modify_bind] at hx
    have hc1 := Container.changes_note_called .init step hb
    rcases Run.bind_error_inv hx with hone | ⟨_, m, hone, hrest⟩
    · exact ⟨hook, List.mem_cons_self, _, _, hc1, hone⟩
    · have ha := Action.aside_runAll scene hook (c.note (.called .init i step))
      unfold runHook at hone
      rw [Run.exec_ofScript] at hone
      obtain ⟨-, rfl⟩ := Prod.mk.inj hone
      have hc2 := hc1.trans (ha.changes hc1.here)
      obtain ⟨hook', hm, m', new, hc3, hx3⟩ := ih hc2.here hrest
      exact ⟨hook', List.mem_cons_of_mem hook hm, m', _, hc2.trans hc3, hx3⟩

/-- A hook that fails does not succeed in all containers, and the failure is of its bean. -/
theorem hook_error {scene : Scene} {hook : List Action} (hstore : c.store = store)
    (hp : c.phase = .refreshing)
    (hx : (runHook owner .init scene hook).exec c = (.error fault, d)) :
    ¬ (Action.runAll scene hook).Succeeds store ∧ fault.IsFailure owner ∧ c.Aside d := by
  have ha := Action.aside_runAll scene hook c
  unfold runHook at hx
  rw [Run.exec_ofScript] at hx
  obtain ⟨hupset, rfl⟩ := Prod.mk.inj hx
  refine ⟨fun hall => ?_, ?_, ha⟩
  · obtain ⟨_, d1, hsucc⟩ := hall c hstore hp
    rw [hsucc] at hupset
    cases hupset
  · generalize (Script.exec _ c).1 = upset at hupset
    cases upset with
    | error upset =>
      cases hupset
      exact ⟨.inr rfl, rfl⟩
    | ok => cases hupset

/-! ### The making as a whole -/

/-- The making of the bean at `i`, on top of the stack since `c`, fails in one of its steps: the beans
are not sound, or one is refused that the bean asks for. -/
structure Breaks (last : Registry) (store : Store) (stack : List ℕ) (make : Maker) (i : ℕ)
    (bean : Bean) (c : Container) (fault : Fault) (d : Container) : Prop where
  slip : ∃ m, Slip make i bean m fault d
  fails : ∃ m now, Grows stack [] c m ∧ m.bean? i = some now ∧
    Fails last store stack make i bean.id (last.Sound store) (now.Seeks last store) m fault d

theorem Breaks.grows {c' : Container} (h : Breaks last store stack make i bean c fault d)
    (hg : Grows stack [] c' c) : Breaks last store stack make i bean c' fault d := by
  obtain ⟨m, now, hg', hrest⟩ := h.fails
  exact ⟨h.slip, m, now, hg.trans hg', hrest⟩

/-- The bean fails in its init hooks. -/
theorem settle_error {taken : Bool} {component : Component}
    (hs : Session last store (stack ++ [i]) c)
    (hb : c.bean? i = some { bean with status := .created, taken })
    (hfirst : last.beans[i]? = some bean) (halive : bean.isAlive = true)
    (hx : (settle i component bean.id ⟨bean.label, some component.fields, true⟩ bean.init).exec c =
      (.error fault, d)) : Breaks last store stack make i bean c fault d := by
  have hcomponent := (hs.on_stack List.mem_concat_self hb).2.1
  unfold settle at hx
  rw [Run.exec_bind_ok (exec_keep hb hcomponent), exec_setStatus_bind] at hx
  have hc1 := Container.changes_modifyBean
    (fun bean => { bean with component := some component }) hb
  have hc2 := hc1.trans (Container.changes_modifyBean
    (fun bean => { bean with status := .wired }) hc1.here)
  rcases Run.bind_error_inv hx with hinit | ⟨_, m, -, hlast⟩
  · obtain ⟨hook, hm, m, new, hc3, hhook⟩ := runInit_error hc2.here hinit
    have hc := hc2.trans hc3
    obtain ⟨hn, hown, ha⟩ := hook_error (hc.store.trans hs.kept.store)
      (hc.phase.trans hs.kept.phase) hhook
    have hstanding : ({ bean with status := .wired, taken, component := some component } :
        Bean).standing = ({ bean with status := .created, taken } : Bean).standing :=
      standing_status { bean with status := .created, taken } (by simp) (by simp) _ _
    refine ⟨⟨m, .hook hc.here hm hhook⟩, c, _, .refl _ _, hb, .own (fun hsound => hn ?_) hown ?_⟩
    · exact hsound.hooks i bean hfirst halive hook hm component.fields
    · exact .of_changes hs (.refl _ _) hb hstanding (hc.trans (ha.changes hc.here))
  · cases hlast

/-- The making of a bean stops once the beans are there that it depends on. -/
theorem complete_error (h : Makes last store (stack ++ [i]) make)
    (hs : Session last store (stack ++ [i]) c) (hb : c.bean? i = some bean)
    (hr : bean.status = .resolved)
    (hx : (complete (injector make) i bean).exec c = (.error fault, d)) :
    Breaks last store stack make i bean c fault d := by
  have hi : i ∈ stack ++ [i] := List.mem_concat_self
  have hstack : i ∉ stack := hs.nodup_below.1
  have halive := isAlive_of_resolved hr
  rw [complete_eq, exec_setStatus_bind] at hx
  obtain ⟨hs1, hc1, hfirst⟩ := session_creating hs hi hb hr
  have ht := (hs.ready.untouched i bean hfirst).1
  rcases Run.bind_error_inv hx with hconstruct | ⟨value, c2, hconstruct, hx⟩
  · refine ⟨⟨_, .source hc1.here hconstruct⟩, _, _, hc1.grows hstack, hc1.here, ?_⟩
    refine (construct_error h hs1 hc1.here ht hconstruct).imp (fun hsound => ?_) fun _ _ => id
    exact (hsound.demands i bean hfirst halive).1
  obtain ⟨middle, taken, new, hs2, hg2, hc2, hn, hn', -⟩ :=
    construct_ok h hs1 hi hc1.here hconstruct
  rw [exec_setStatus_bind] at hx
  obtain ⟨hs3, hc3⟩ := session_created hs2 hi ((hg2.stack i hi).trans hc1.here) hc2 hn hn'
  have hg3 : Grows stack [] c (c2.modifyBean i fun bean => { bean with status := .created }) :=
    (hc1.grows hstack).trans (hg2.of_append.trans (hc3.grows hstack))
  rcases Run.bind_error_inv hx with hfields | ⟨fields, c4, hfields, hx⟩
  · unfold Definition.wireFields at hfields
    rw [Run.exec_guarded] at hfields
    generalize hsteps : Run.exec _ _ = result at hfields
    obtain ⟨outcome, d'⟩ := result
    rcases outcome with cause | value
    · cases hfields
      obtain ⟨step, hm, m, hs4, hg4, hstep⟩ := steps_error h hs3 hsteps
      have hb4 := (hg4.stack i hi).trans hc3.here
      have hguarded : (Run.guarded bean.id .wire
          (step.run (injector make) bean.id bean.toDefinition)).exec m =
            (.error (cause.staged bean.id .wire), d') := by
        rw [Run.exec_guarded, hstep]
        rfl
      refine ⟨⟨m, .field hb4 hm hguarded⟩, m, _, hg3.trans hg4.of_append, hb4, ?_⟩
      refine (step_error h hs4 hstep).imp (fun hsound => ?_) fun lazy j hj => ?_
      · exact FieldStep.met_of_mem hm (hsound.demands i bean hfirst halive).2
      · exact FieldStep.asks_of_mem hm hj
    · cases hfields
  · obtain ⟨hs4, hg4, -⟩ := fields_ok h hs3 hfields
    have hb4 := (hg4.stack i hi).trans hc3.here
    exact (settle_error hs4 hb4 hfirst halive hx).grows (hg3.trans hg4.of_append)

/-- **Why the making of a bean stops**: the beans are not sound, or one is refused that the bean
asks for. -/
theorem build_error (h : Makes last store (stack ++ [i]) make) (hs : Session last store stack c)
    (hb : c.bean? i = some bean) (hr : bean.status = .resolved) (hi : i ∉ stack)
    (hx : (build make i).exec c = (.error fault, d)) :
    Breaks last store stack make i bean (c.note (.entered i)) fault d := by
  have halive := isAlive_of_resolved hr
  have hs1 := hs.push hb hr hi
  have hfirst := (session_creating hs1 List.mem_concat_self hb hr).2.2
  unfold build at hx
  rw [Run.exec_withBean _ hb, Run.exec_modify_bind] at hx
  rcases Run.bind_error_inv hx with hdep | ⟨_, c1, hdep, hx⟩
  · obtain ⟨front, selector, back, m, hsplit, hfront, hone⟩ := Run.forM_error hdep
    obtain ⟨hs2, hg2, -⟩ := dependencies_ok h hs1 hfront
    have hb2 : m.bean? i = some bean := (hg2.stack i List.mem_concat_self).trans hb
    have hm : selector ∈ bean.dependsOn := by
      rw [hsplit]
      simp
    refine ⟨⟨m, .dependency hb2 hm hone⟩, m, bean, hg2.of_append, hb2, ?_⟩
    refine (dependency_error h hs2 hone).imp (fun hsound => ?_) ?_
    · exact hsound.dependencies i bean hfirst halive selector hm
    · rintro lazy j ⟨rfl, hj⟩
      unfold Bean.Seeks
      rw [hr]
      exact ⟨rfl, selector, hm, hj⟩
  · obtain ⟨hs2, hg2, -⟩ := dependencies_ok h hs1 hdep
    have hb2 : c1.bean? i = some bean := (hg2.stack i List.mem_concat_self).trans hb
    rw [Run.exec_withBean _ hb2] at hx
    exact (complete_error h hs2 hb2 hr hx).grows hg2.of_append

end Wiring
end BeanContainer
