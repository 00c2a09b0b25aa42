/-
# Closing mirrors the start

A destroy hook has no context to ask, so how it ends depends on its steps alone. Whatever becomes of
it, the next hook is called. So the close of a container calls the destroy hooks of its beans in the
reverse of the order in which the beans were initialized, and fails with the fault of the first hook
that fails (`Closing.destroyAll_calls`). Together with the course of the refresh that gives the whole
life of a container (`Container.close_mirrors`).

Key definitions: `Action.upset?`, `Definition.destroyFaults`, `Closing.Calls`, `Container.Shut`,
`Container.Up`.
Key theorems: `Action.exec_runAll`, `Closing.runHooks_calls`, `Closing.destroyAll_calls`,
`Container.close_calls`, `Container.refresh_up`, `Container.close_mirrors`.
-/
import BeanContainer.Container.Closing
import BeanContainer.Proofs.Container.Shadow

namespace BeanContainer

variable {c d e : Container} {i : ℕ} {bean : Bean}

/-! ### Destroy hooks -/

/-- How a step of user code stops it. -/
def Action.upset? : Action → Option Upset
  | fail reason => some (.failed reason)
  | panic reason => some (.panicked reason)
  | _ => none

/-- The outcome of user code that stops as `upset` says, if at all. -/
def Upset.outcome : Option Upset → Except Upset Unit
  | none => .ok ()
  | some upset => .error upset

namespace Action

variable {scene : Scene}

/-- Without a context, how a step ends does not depend on the container. -/
theorem exec_run (hs : scene.hasContext = false) (action : Action) (c : Container) :
    (Script.exec (action.run scene) c).1 = Upset.outcome action.upset? := by
  cases action with
  | ask request =>
    unfold run
    rw [hs]
    rfl
  | _ => rfl

/-- **User code without a context ends as its first step that fails or panics.** -/
theorem exec_runAll (hs : scene.hasContext = false) (actions : List Action) (c : Container) :
    (Script.exec (runAll scene actions) c).1 = Upset.outcome (actions.findSome? upset?) := by
  induction actions generalizing c with
  | nil => rfl
  | cons action rest ih =>
    have hone := exec_run hs action c
    show (Script.exec (action.run scene >>= fun _ => runAll scene rest) c).1 = _
    rw [Script.exec_bind, List.findSome?_cons]
    rcases hr : Script.exec (action.run scene) c with ⟨upset | u, d⟩ <;> rw [hr] at hone
    · rcases hu : action.upset? with _ | upset' <;> rw [hu] at hone
      · cases hone
      · exact hone
    · rcases hu : action.upset? with _ | upset' <;> rw [hu] at hone
      · exact ih d
      · cases hone

end Action

/-- The fault of a destroy hook of the bean `owner`, if it has one. -/
def Action.destroyFault? (owner : String) (hook : List Action) : Option Fault :=
  (hook.findSome? Action.upset?).map fun upset => .lifecycle owner .destroy upset.reason

/-- The faults of those destroy hooks that fail or panic, in order. -/
def Definition.destroyFaults (definition : Definition) : List Fault :=
  definition.destroy.filterMap (Action.destroyFault? definition.id)

/-- The faults of the destroy hooks of the bean at a position. -/
def Registry.destroyFaults (registry : Registry) (i : ℕ) : List Fault :=
  (registry.beans[i]?.map (·.destroyFaults)).getD []

/-! ### Calls -/

namespace Closing

/-- From `c` to `d` these destroy hooks were called, each as the bean with the number of the hook;
nothing else happened but on the side. -/
structure Calls (steps : List (ℕ × ℕ)) (c d : Container) : Prop where
  same : d = { c with cancelled := d.cancelled, events := d.events }
  trace : d.trace .destroy = c.trace .destroy ++ steps

variable {steps more : List (ℕ × ℕ)}

theorem Calls.trans (h : Calls steps c d) (h' : Calls more d e) : Calls (steps ++ more) c e := by
  refine ⟨?_, ?_⟩
  · rw [h'.same, h.same]
  · rw [h'.trace, h.trace, List.append_assoc]

theorem calls_of_aside (h : c.Aside d) : Calls [] c d :=
  ⟨h.same, (h.trace .destroy).trans (List.append_nil _).symm⟩

theorem calls_note (c : Container) (i step : ℕ) :
    Calls [(i, step)] c (c.note (.called .destroy i step)) :=
  ⟨rfl, c.trace_note _ _⟩

theorem Calls.registry (h : Calls steps c d) : d.registry = c.registry := by
  rw [h.same]

theorem Calls.present (h : Calls steps c d) (hp : c.Present i) : d.Present i := by
  have hbean : d.bean? i = c.bean? i := by
    unfold Container.bean?
    rw [h.registry]
  unfold Container.Present
  rwa [Container.component?_congr hbean]

variable {scene : Scene}

theorem exec_runHook (hs : scene.hasContext = false) (owner : String) (hook : List Action)
    (c : Container) :
    ∃ d, c.Aside d ∧ (runHook owner .destroy scene hook).exec c =
      (match Action.destroyFault? owner hook with
        | none => .ok ()
        | some fault => .error fault, d) := by
  refine ⟨_, Action.aside_runAll scene hook c, ?_⟩
  unfold runHook Action.destroyFault?
  rw [Run.exec_ofScript, Action.exec_runAll hs]
  cases hook.findSome? Action.upset? <;> rfl

theorem runHooks_cons (i : ℕ) (owner : String) (scene : Scene) (step : ℕ) (hook : List Action)
    (rest : List (List Action)) (c : Container) :
    runHooks i owner scene step (hook :: rest) c =
      match (runHook owner .destroy scene hook).exec (c.note (.called .destroy i step)) with
      | (.ok _, d) => runHooks i owner scene (step + 1) rest d
      | (.error fault, d) =>
        (fault :: (runHooks i owner scene (step + 1) rest d).1,
          (runHooks i owner scene (step + 1) rest d).2) := by
  have hnote : (modify (·.note (.called .destroy i step)) : StateM Container PUnit) c =
      (⟨⟩, c.note (.called .destroy i step)) := rfl
  simp only [runHooks, Run.state_bind, hnote]
  rcases hr : (runHook owner .destroy scene hook).exec (c.note (.called .destroy i step)) with
    ⟨fault | u, d⟩
  · have hr' : Run.outcome (runHook owner .destroy scene hook)
        (c.note (.called .destroy i step)) = (.error fault, d) := hr
    rw [hr']
    rfl
  · have hr' : Run.outcome (runHook owner .destroy scene hook)
        (c.note (.called .destroy i step)) = (.ok u, d) := hr
    rw [hr']

/-- **All destroy hooks of a bean are called in their order**, whatever becomes of them. -/
theorem runHooks_calls (hs : scene.hasContext = false) (i : ℕ) (owner : String) (step : ℕ)
    (hooks : List (List Action)) (c : Container) :
    ∃ d, runHooks i owner scene step hooks c =
        (hooks.filterMap (Action.destroyFault? owner), d) ∧
      Calls ((List.range' step hooks.length).map (i, ·)) c d := by
  induction hooks generalizing step c with
  | nil => exact ⟨c, rfl, rfl, (List.append_nil _).symm⟩
  | cons hook rest ih =>
    have hnote := calls_note c i step
    obtain ⟨c1, ha, hx⟩ := exec_runHook hs owner hook (c.note (.called .destroy i step))
    obtain ⟨d, hrest, hcalls⟩ := ih (step + 1) c1
    refine ⟨d, ?_, (hnote.trans (calls_of_aside ha)).trans hcalls⟩
    rw [runHooks_cons, hx, List.filterMap_cons]
    cases Action.destroyFault? owner hook with
    | none => exact hrest
    | some fault =>
      dsimp only
      rw [hrest]

theorem destroyBean_calls (hb : c.bean? i = some bean) (hp : bean.component.isSome = true) :
    ∃ d, destroyBean i c = (c.registry.destroyFaults i, d) ∧
      Calls (c.registry.hookSteps .destroy i) c d := by
  obtain ⟨component, hcomponent⟩ := Option.isSome_iff_exists.mp hp
  have hget : (get : StateM Container Container) c = (c, c) := rfl
  have hrun : destroyBean i c =
      runHooks i bean.id ⟨bean.label, some component.fields, false⟩ 0 bean.destroy c := by
    simp only [destroyBean, Run.state_bind, hget, hb, hcomponent]
  have hfaults : c.registry.destroyFaults i = bean.destroyFaults := by
    unfold Registry.destroyFaults
    change c.registry.beans[i]? = some bean at hb
    rw [hb]
    rfl
  have hsteps : c.registry.hookSteps .destroy i =
      (List.range' 0 bean.destroy.length).map (i, ·) := by
    rw [Registry.hookSteps_of_bean hb, List.range_eq_range']
    rfl
  rw [hrun, hfaults, hsteps]
  exact runHooks_calls rfl i bean.id 0 bean.destroy c

/-- **The destroy hooks of beans that are there are called one bean after the other.** -/
theorem destroyAll_calls (positions : List ℕ) (c : Container)
    (hp : ∀ i ∈ positions, c.Present i) :
    ∃ d, destroyAll positions c = (positions.flatMap c.registry.destroyFaults, d) ∧
      Calls (positions.flatMap (c.registry.hookSteps .destroy)) c d := by
  induction positions generalizing c with
  | nil => exact ⟨c, rfl, rfl, (List.append_nil _).symm⟩
  | cons i rest ih =>
    obtain ⟨bean, hb, hcomponent⟩ := (hp i List.mem_cons_self).exists_bean
    obtain ⟨c1, hone, hcalls⟩ := destroyBean_calls hb hcomponent
    obtain ⟨d, hrest, hcalls'⟩ := ih c1 fun j hj =>
      hcalls.present (hp j (List.mem_cons_of_mem i hj))
    rw [hcalls.registry] at hrest hcalls'
    refine ⟨d, ?_, hcalls.trans hcalls'⟩
    show ((destroyBean i c).1 ++ (destroyAll rest (destroyBean i c).2).1,
      (destroyAll rest (destroyBean i c).2).2) = _
    rw [hone]
    dsimp only
    rw [hrest]
    rfl

end Closing

namespace Registry

variable {registry other : Registry}

theorem destroyFaults_congr
    (h : registry.beans.map (·.toDefinition) = other.beans.map (·.toDefinition)) :
    registry.destroyFaults = other.destroyFaults := by
  funext i
  have hi := congrArg (·[i]?.map Definition.destroyFaults) h
  simp only [List.getElem?_map, Option.map_map] at hi
  unfold destroyFaults
  exact congrArg (·.getD []) hi

end Registry

namespace Container

/-! ### The close -/

/-- Shutdown was requested, and nothing can be asked for any more; asking changes nothing. -/
structure Shut (c : Container) : Prop where
  cancelled : c.cancelled = true
  find : ∀ selector, (Context.find selector).exec c = (.error (.usage .closed), c)
  get : ∀ tag injection, (Context.get tag injection).exec c = (.error (.usage .closed), c)
  invoke : ∀ callable arguments,
    (Context.invoke callable arguments).exec c = (.error (.usage .closed), c)
  adopt : ∀ definition, (Context.adopt definition).exec c = (.error (.usage .closed), c)

theorem shut_of_phase (hp : c.phase = .closed) (hc : c.cancelled = true) : c.Shut := by
  have hrefused : c.phase.access = .error (.usage .closed) := by rw [hp]; rfl
  exact ⟨hc, fun _ => Context.exec_refused hrefused, fun _ _ => Context.exec_refused hrefused,
    fun _ _ => Context.exec_refused hrefused, fun _ => Context.exec_refused hrefused⟩

theorem exec_close (c : Container) : close.exec c =
    (match (Closing.destroyAll c.order.reverse c).1 with
      | [] => .ok ()
      | fault :: _ => .error fault,
      { (Closing.destroyAll c.order.reverse c).2.requestShutdown with phase := .closed }) := by
  unfold close
  rw [Run.exec_get_bind, Run.exec_lift_bind, Run.exec_modify_bind]
  rcases (Closing.destroyAll c.order.reverse c).1 with _ | ⟨fault, rest⟩ <;> rfl

/-- A close of beans that are there calls their destroy hooks, bean by bean in the reverse of the
order. It fails with the fault of the first hook that fails, if any. -/
theorem close_calls (hp : ∀ i ∈ c.order, c.Present i) :
    ∃ closed, close.exec c = (match c.order.reverse.flatMap c.registry.destroyFaults with
        | [] => .ok ()
        | fault :: _ => .error fault, closed) ∧ closed.phase = .closed ∧
      closed.cancelled = true ∧
      closed.trace .destroy =
        c.trace .destroy ++ c.order.reverse.flatMap (c.registry.hookSteps .destroy) := by
  obtain ⟨closing, hclose, hcalls⟩ := Closing.destroyAll_calls c.order.reverse c fun i hi =>
    hp i (List.mem_reverse.mp hi)
  have hend := exec_close c
  rw [hclose] at hend
  have hsame : ({ closing.requestShutdown with phase := .closed } : Container).trace .destroy =
      closing.trace .destroy := closing.aside_requestShutdown.trace .destroy
  exact ⟨_, hend, rfl, rfl, hsame.trans hcalls.trace⟩

/-- A fresh container has no calls at all. -/
theorem Fresh.trace (hc : c.Fresh) (stage : Stage) : c.trace stage = [] := by
  rcases ht : c.trace stage with _ | ⟨⟨i, step⟩, rest⟩
  · rfl
  · have hi := hc.calls stage i
    rw [calls_eq, ht] at hi
    simp at hi

/-- A container in which all beans that take part are there and initialized. -/
structure Up (c : Container) : Prop where
  nodup : c.order.Nodup
  mem_order : ∀ i, i ∈ c.order ↔ ∃ bean, c.bean? i = some bean ∧ bean.isAlive = true
  initialized : ∀ i ∈ c.order, ∃ bean, c.bean? i = some bean ∧ bean.status = .initialized ∧
    bean.component.isSome = true

theorem Up.present (h : c.Up) (hi : i ∈ c.order) : c.Present i := by
  obtain ⟨bean, hb, -, hp⟩ := h.initialized i hi
  exact (present_iff_of_bean hb).mpr hp

/-- After a refresh that succeeds the container is up, and no destroy hook has been called. -/
theorem refresh_up (hc : c.Fresh) (hx : refresh.exec c = (.ok (), d)) :
    d.Up ∧ d.initializations = c.initializations ++ d.order ∧ d.trace .destroy = [] := by
  obtain ⟨last, done, hr, -, hs, hp, -, hextends, rfl⟩ := refresh_course hc hx
  obtain ⟨made, ho, hi, -, hdestroy⟩ := hextends.steps
  change done.order = c.order ++ made at ho
  rw [hc.order, List.nil_append] at ho
  subst ho
  refine ⟨⟨hs.order_nodup, fun i => hs.mem_order_iff hp, fun i hi => ?_⟩, hi, ?_⟩
  · obtain ⟨bean, hb, status, component, -⟩ := hs.made_of_mem hi
    exact ⟨bean, hb, status, component⟩
  · exact hdestroy.trans (hc.trace .destroy)

/-- **Shutdown mirrors the start.** After a refresh that succeeds, the order holds the beans that
take part, each once. They were initialized in that order, and the init hooks of each were called in
the order in which they were added. Later, when the container is closed, the destroy hooks are
called bean by bean in the reverse order, and for each bean in the order in which they were added;
each is called once, whatever becomes of the others. The close fails with the fault of the first
hook that fails or panics, and succeeds if there is none. From then on the container is shut. -/
theorem close_mirrors (hc : c.Fresh) (hx : refresh.exec c = (.ok (), d)) (ha : d.Aside e) :
    (d.order.Nodup ∧ (∀ i, i ∈ d.order ↔ ∃ bean, d.bean? i = some bean ∧ bean.isAlive = true) ∧
      d.initializations = c.initializations ++ d.order ∧
      d.trace .init = d.order.flatMap (c.registry.hookSteps .init)) ∧
    ∃ outcome closed, close.exec e = (outcome, closed) ∧
      closed.trace .destroy = d.order.reverse.flatMap (c.registry.hookSteps .destroy) ∧
      (closed.trace .destroy).Nodup ∧
      outcome = (match d.order.reverse.flatMap c.registry.destroyFaults with
        | [] => .ok ()
        | fault :: _ => .error fault) ∧
      ∀ later, closed.Aside later → later.Shut := by
  obtain ⟨last, done, hr, -, hs, hp, -, hextends, rfl⟩ := refresh_course hc hx
  have hdefinitions : e.registry.beans.map (·.toDefinition) =
      c.registry.beans.map (·.toDefinition) := by
    rw [ha.registry]
    exact hs.kept.alike.definitions.trans (definitions_of_resolve hr)
  have horder : e.order = done.order := by rw [ha.same]
  obtain ⟨made, ho, hi, hinit, hdestroy⟩ := hextends.steps
  change done.order = c.order ++ made at ho
  rw [hc.order, List.nil_append] at ho
  subst ho
  have hinit' : done.trace .init = done.order.flatMap (c.registry.hookSteps .init) := by
    have hbefore : ({ c with phase := .refreshing, registry := last } : Container).trace .init = [] :=
      hc.trace .init
    rw [hinit, hbefore, List.nil_append,
      Registry.hookSteps_congr (definitions_of_resolve hr)]
  have hnone : ({ done with phase := .running } : Container).trace .destroy = [] :=
    hdestroy.trans (hc.trace .destroy)
  -- the close goes through the order backwards, and all its beans are there
  have hpresent : ∀ i ∈ e.order.reverse, e.Present i := by
    intro i hi
    rw [List.mem_reverse, horder] at hi
    exact ha.present (hs.present_iff.mpr hi)
  obtain ⟨closing, hclose, hcalls⟩ := Closing.destroyAll_calls e.order.reverse e hpresent
  have htrace : closing.trace .destroy =
      done.order.reverse.flatMap (c.registry.hookSteps .destroy) := by
    rw [hcalls.trace, ha.trace, hnone, List.nil_append, Registry.hookSteps_congr hdefinitions,
      horder]
  have hend := exec_close e
  rw [hclose, Registry.destroyFaults_congr hdefinitions, horder] at hend
  have hsame : ({ closing.requestShutdown with phase := .closed } : Container).trace .destroy =
      closing.trace .destroy := closing.aside_requestShutdown.trace .destroy
  refine ⟨⟨hs.order_nodup, fun i => hs.mem_order_iff hp, hi, hinit'⟩, _, _, hend, ?_, ?_, rfl, ?_⟩
  · rw [hsame, htrace]
  · rw [hsame, htrace]
    exact Registry.nodup_hookSteps (List.nodup_reverse.mpr hs.order_nodup) .destroy
  · exact fun later hl => shut_of_phase hl.phase (hl.cancelled rfl)

/-- Two beans with hooks, the first one constructed with the second one: a destroy hook of the first
one fails, and the one of the second one panics. -/
def hooked : List Definition :=
  [{ constructedWith "A" "B" .one with
      init := [[.announce "init"]]
      destroy := [[.announce "destroy"], [.fail "jammed"]] },
    { Definition.ofSource ⟨"B"⟩ "B" (.object .unit) with
      init := [[.announce "init"], [.log "ready"]]
      destroy := [[.panic "gone"], [.announce "destroy"]] }]

theorem close_mirrors_hooked : ∃ d closed,
    refresh.exec (hooked.foldl register (ofStore .empty)) = (.ok (), d) ∧ d.order = [1, 0] ∧
      d.trace .init = [(1, 0), (1, 1), (0, 0)] ∧
      close.exec d = (.error (.lifecycle "A" .destroy "jammed"), closed) ∧
      closed.trace .destroy = [(0, 0), (0, 1), (1, 0), (1, 1)] ∧ closed.Shut := by
  have hok : (refresh.exec (hooked.foldl register (ofStore .empty))).1 = .ok () := by cbv
  have horder : (refresh.exec (hooked.foldl register (ofStore .empty))).2.order = [1, 0] := by cbv
  obtain ⟨⟨-, -, -, hinit⟩, outcome, closed, hclose, hdestroy, -, rfl, hshut⟩ :=
    close_mirrors (fresh_register .empty hooked) (Prod.ext hok rfl) (.refl _)
  rw [horder] at hinit hdestroy hclose
  exact ⟨_, closed, Prod.ext hok rfl, horder, hinit, hclose, hdestroy, hshut closed (.refl _)⟩

end Container
end BeanContainer
