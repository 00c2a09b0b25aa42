/-
# The life of an application

Beans with work do it one after the other, and what follows does not depend on whether one of them
fails: the container is closed, and the destroy hooks of all beans are called. How the work ends
decides only which fault is reported. A panic of the work is no end of it: it leaves the run at
once, and no destroy hook is called.

Key definitions: `ApplicationRun.exec`, `Application.Relay`, `Application.workers`,
`Application.ending`, `Application.verdict`, `Application.Panics`.
Key theorems: `Application.exists_relay`, `Application.exec_finish`, `Application.run_closes`.
-/
import BeanContainer.Application
import BeanContainer.Proofs.Container.Closing

namespace BeanContainer

variable {α β : Type} {c d e : Container} {i : ℕ} {bean : Bean}

/-! ### Computations in an application -/

namespace ApplicationRun

/-- The outcome of a computation and the container that it leaves. -/
def exec (run : ApplicationRun α) (c : Container) : Except ApplicationFault α × Container := run c

theorem exec_bind (run : ApplicationRun α) (next : α → ApplicationRun β) (c : Container) :
    exec (run >>= next) c =
      match exec run c with
      | (.ok a, d) => exec (next a) d
      | (.error fault, d) => (.error fault, d) := by
  show (ExceptT.bindCont next (run c).1 (run c).2 : Except ApplicationFault β × Container) = _
  unfold exec
  rcases run c with ⟨_ | a, d⟩ <;> rfl

theorem exec_get_bind (next : Container → ApplicationRun β) (c : Container) :
    exec (get >>= next) c = exec (next c) c := rfl

theorem exec_modify_bind (f : Container → Container) (next : PUnit → ApplicationRun β)
    (c : Container) : exec (modify f >>= next) c = exec (next ⟨⟩) (f c) := rfl

theorem exec_lift_bind (run : StateM Container α) (next : α → ApplicationRun β) (c : Container) :
    exec (liftM run >>= next) c = exec (next (run c).1) (run c).2 := rfl

theorem exec_script_bind (script : Script α) (next : Except Upset α → ApplicationRun β)
    (c : Container) : exec (liftM (ExceptT.run script) >>= next) c =
      exec (next (Script.exec script c).1) (Script.exec script c).2 := rfl

theorem exec_outcome_bind (run : Run α) (next : Except Fault α → ApplicationRun β)
    (c : Container) : exec (liftM (Run.outcome run) >>= next) c =
      exec (next (run.exec c).1) (run.exec c).2 := rfl

theorem exec_attempt_bind (run : ApplicationRun α)
    (next : Except ApplicationFault α → ApplicationRun β) (c : Container) :
    exec (liftM (ExceptT.run run) >>= next) c = exec (next (run.exec c).1) (run.exec c).2 := rfl

theorem exec_ofRun (run : Run α) (c : Container) :
    exec (ofRun run) c = ((run.exec c).1.mapError .core, (run.exec c).2) := by
  unfold exec Run.exec
  show (match (run c).1 with | _ => _ : StateM Container (Except ApplicationFault α)) (run c).2 = _
  rcases run c with ⟨fault | a, d⟩ <;> rfl

end ApplicationRun

namespace Application

/-! ### Work -/

/-- The work that a bean does. -/
def workOf (bean : Bean) : Work := bean.work.getD ⟨bean.label, []⟩

/-- What a bean does as its work. -/
def workScript (bean : Bean) : Script Unit :=
  Action.runAll ⟨bean.label, bean.component.map (·.fields), true⟩ (workOf bean).actions

theorem exec_runWork (hb : c.bean? i = some bean) : (runWork i).exec c =
    ((Script.exec (workScript bean) (c.note (.working i))).1.mapError (workOf bean).fault,
      (Script.exec (workScript bean) (c.note (.working i))).2) := by
  unfold runWork
  rw [ApplicationRun.exec_get_bind, hb]
  dsimp only
  rw [ApplicationRun.exec_modify_bind, ApplicationRun.exec_script_bind]
  unfold workScript workOf
  rcases Script.exec _ (c.note (.working i)) with ⟨upset | u, d⟩ <;> rfl

/-- The work of a bean does nothing but on the side. -/
theorem aside_runWork (i : ℕ) (c : Container) : c.Aside ((runWork i).exec c).2 := by
  rcases hb : c.bean? i with _ | bean
  · unfold runWork
    rw [ApplicationRun.exec_get_bind, hb]
    exact .refl c
  · rw [exec_runWork hb]
    exact (c.aside_note rfl).trans (Action.aside_runAll _ _ _)

/-- Beans do their work one after the other, as they stand in line, and none comes after one that
fails. Those at `started` began, and the last of them gives the outcome. -/
inductive Relay : List ℕ → Container → List ℕ → Except ApplicationFault Unit → Container → Prop
  | idle {c : Container} : Relay [] c [] (.ok ()) c
  | failed {i : ℕ} {rest : List ℕ} {fault : ApplicationFault} {c d : Container} :
      (runWork i).exec c = (.error fault, d) → Relay (i :: rest) c [i] (.error fault) d
  | next {i : ℕ} {rest started : List ℕ} {outcome : Except ApplicationFault Unit}
      {c d e : Container} : (runWork i).exec c = (.ok (), d) → Relay rest d started outcome e →
      Relay (i :: rest) c (i :: started) outcome e

section

variable {line begun : List ℕ} {worked : Except ApplicationFault Unit}

theorem exists_relay (line : List ℕ) (c : Container) : ∃ started worked d,
    Relay line c started worked d ∧ (line.forM runWork).exec c = (worked, d) := by
  induction line generalizing c with
  | nil => exact ⟨[], .ok (), c, .idle, rfl⟩
  | cons i rest ih =>
    have hforM : ((i :: rest).forM runWork).exec c =
        (runWork i >>= fun _ => rest.forM runWork).exec c := rfl
    rw [hforM, ApplicationRun.exec_bind]
    rcases hone : (runWork i).exec c with ⟨fault | u, d⟩
    · exact ⟨[i], .error fault, d, .failed hone, rfl⟩
    · obtain ⟨started, worked, e, hrelay, hrest⟩ := ih d
      exact ⟨i :: started, worked, e, .next hone hrelay, hrest⟩

theorem Relay.aside (h : Relay line c begun worked d) : c.Aside d := by
  induction h with
  | idle => exact .refl _
  | @failed i _ _ c _ hone =>
    have ha := aside_runWork i c
    rwa [hone] at ha
  | @next i _ _ _ c _ _ hone _ ih =>
    have ha := aside_runWork i c
    rw [hone] at ha
    exact ha.trans ih

/-- Those that began are the first ones in line; if none failed, they are all. -/
theorem Relay.started (h : Relay line c begun worked d) :
    begun <+: line ∧ (worked = .ok () → begun = line) := by
  induction h with
  | idle => exact ⟨List.prefix_rfl, fun _ => rfl⟩
  | failed => exact ⟨List.prefix_cons_inj _ |>.mpr (List.nil_prefix), nofun⟩
  | next _ _ ih =>
    exact ⟨(List.prefix_cons_inj _).mpr ih.1, fun hw => congrArg _ (ih.2 hw)⟩

/-- The fault is that of the bean which began last. -/
theorem Relay.fault (h : Relay line c begun worked d) {fault : ApplicationFault}
    (hf : worked = .error fault) (hp : ∀ i ∈ line, c.Present i) :
    ∃ i bean upset, begun.getLast? = some i ∧ c.bean? i = some bean ∧
      fault = (workOf bean).fault upset := by
  induction h with
  | idle => cases hf
  | @failed i rest fault' c d hone =>
    cases hf
    obtain ⟨bean, hb, -⟩ := (hp i List.mem_cons_self).exists_bean
    rw [exec_runWork hb] at hone
    rcases hs : (Script.exec (workScript bean) (c.note (.working i))).1 with upset | u
    · rw [hs] at hone
      cases hone
      exact ⟨i, bean, upset, rfl, hb, rfl⟩
    · rw [hs] at hone
      cases hone
  | @next i rest started worked c d e hone hrelay ih =>
    have ha := aside_runWork i c
    rw [hone] at ha
    obtain ⟨k, bean, upset, hlast, hb, hfault⟩ := ih hf fun j hj =>
      ha.present (hp j (List.mem_cons_of_mem i hj))
    refine ⟨k, bean, upset, ?_, (ha.bean? k) ▸ hb, hfault⟩
    rw [List.getLast?_cons, hlast]
    rfl

end

/-- The beans that have work to do, in the order in which they do it. -/
def workers (registry : Registry) : List ℕ :=
  registry.byOrder (registry.candidates workType)

theorem nodup_workers (registry : Registry) : (workers registry).Nodup :=
  (registry.byOrder_perm _).nodup_iff.mpr
    ((registry.candidates_sorted workType).imp fun hij => Nat.ne_of_lt hij)

/-- Where all beans are there, those do their work that have some. -/
theorem exec_runAllWork (c : Container) :
    runAllWork.exec c = ((workers c.registry).forM runWork).exec c := by
  have hselect : c.registry.select workType { AutowireTag.byType with optional := true } =
      .ok (workers c.registry) := rfl
  have hseveral : (Injection.several Context.live workType
      { AutowireTag.byType with optional := true }).exec c =
        (.ok (c.registry.handles workType (workers c.registry)), c) := by
    unfold Injection.several
    rw [Run.exec_bind, Context.exec_live, hselect]
    simp
    rfl
  have hbeans : (c.registry.handles workType (workers c.registry)).map (·.bean) =
      workers c.registry :=
    Registry.handles_bean (Registry.select_subset hselect)
  unfold runAllWork
  rw [ApplicationRun.exec_bind, ApplicationRun.exec_ofRun, hseveral]
  conv_rhs => rw [← hbeans]
  exact congrArg (ApplicationRun.exec · c) List.forM_map.symm

theorem start_ok {application : Application} (hx : application.start.exec c = (.ok (), d)) :
    ∃ store, application.load = .ok store ∧
      Container.refresh.exec { c with store } = (.ok (), d) := by
  unfold start at hx
  rcases hl : application.load with fault | store
  · rw [hl] at hx
    cases hx
  · rw [hl] at hx
    dsimp only at hx
    rw [ApplicationRun.exec_modify_bind, ApplicationRun.exec_ofRun] at hx
    rcases hr : Container.refresh.exec { c with store } with ⟨fault | u, d'⟩ <;> rw [hr] at hx
    · cases hx
    · cases hx
      exact ⟨store, rfl, hr⟩

/-- The container that is closed once the beans did their work, with this outcome. -/
def ending (worked : Except ApplicationFault Unit) (c : Container) : Container :=
  if worked.isOk then (awaitShutdown c).2 else c

/-- The fault of the work counts before that of the close. -/
def verdict : Except ApplicationFault Unit → Except Fault Unit → Except ApplicationFault Unit
  | .error fault, _ => .error fault
  | .ok (), closed => closed.mapError .core

theorem verdict_ok (worked : Except ApplicationFault Unit) : verdict worked (.ok ()) = worked := by
  rcases worked with fault | u <;> rfl

/-- The work broke off: it neither came to its end nor failed. -/
def Panics (worked : Except ApplicationFault Unit) : Prop :=
  ∃ reason, worked = .error (.core (.panic reason))

section

variable {worked : Except ApplicationFault Unit} {closing : Except Fault Unit}

/-- Work that does not break off is followed by the close. -/
theorem exec_finish (hp : ¬ Panics worked)
    (hclose : Container.close.exec (ending worked c) = (closing, d)) :
    (finish worked).exec c = (verdict worked closing, d) := by
  unfold finish
  split
  · next reason => exact absurd ⟨reason, rfl⟩ hp
  · rcases worked with fault | u
    · change Container.close.exec c = (closing, d) at hclose
      show ApplicationRun.exec (liftM (Run.outcome Container.close) >>= _) c = _
      rw [ApplicationRun.exec_outcome_bind, hclose]
      rfl
    · change Container.close.exec (awaitShutdown c).2 = (closing, d) at hclose
      show ApplicationRun.exec (liftM awaitShutdown >>= fun _ =>
        liftM (Run.outcome Container.close) >>= _) c = _
      rw [ApplicationRun.exec_lift_bind, ApplicationRun.exec_outcome_bind, hclose]
      rcases closing with fault | u' <;> rfl

/-- A panic goes on, and the container is left. -/
theorem exec_finish_of_panics (hp : Panics worked) (c : Container) :
    (finish worked).exec c = (worked, c.abandon) := by
  obtain ⟨reason, rfl⟩ := hp
  rfl

theorem exec_run {application : Application} (hx : application.start.exec c = (.ok (), d))
    (hw : runAllWork.exec d = (worked, e)) : application.run.exec c = (finish worked).exec e := by
  unfold run
  rw [ApplicationRun.exec_bind, hx]
  dsimp only
  rw [ApplicationRun.exec_attempt_bind, hw]

end

/-- Waiting comes to its end when shutdown is requested. -/
theorem awaitShutdown_cancelled (c : Container) :
    c.Aside (awaitShutdown c).2 ∧ (awaitShutdown c).2.cancelled = true := by
  by_cases hc : c.cancelled = true
  · have hnone : awaitShutdown c = ((), c) := by
      show (if c.cancelled = true then _ else _ : StateM Container Unit) c = _
      rw [if_pos hc]
      rfl
    rw [hnone]
    exact ⟨.refl c, hc⟩
  · have hwait : awaitShutdown c = ((), (c.note .waiting).requestShutdown) := by
      show (if c.cancelled = true then _ else _ : StateM Container Unit) c = _
      rw [if_neg hc]
      rfl
    rw [hwait]
    exact ⟨(c.aside_note rfl).trans (Container.aside_requestShutdown _), rfl⟩

theorem aside_ending (worked : Except ApplicationFault Unit) (c : Container) :
    c.Aside (ending worked c) := by
  unfold ending
  by_cases hw : worked.isOk = true
  · rw [if_pos hw]
    exact (awaitShutdown_cancelled c).1
  · rw [if_neg hw]
    exact .refl c

/-! ### The end -/

/-- In a container that is up, those beans have work to do that are injectable as such. -/
theorem mem_workers (h : c.Up) : i ∈ workers c.registry ↔
    ∃ bean, c.bean? i = some bean ∧ bean.isAlive = true ∧ workType ∈ bean.exports := by
  unfold workers
  rw [(Registry.byOrder_perm _ _).mem_iff, Registry.mem_candidates]
  constructor
  · rintro ⟨bean, hb, hinject, hexport⟩
    exact ⟨bean, hb, (Bool.and_eq_true_iff.mp hinject).1, List.elem_iff.mp hexport⟩
  · rintro ⟨bean, hb, halive, hexport⟩
    obtain ⟨bean', hb', status, -⟩ := h.initialized i ((h.mem_order i).mpr ⟨bean, hb, halive⟩)
    rw [hb] at hb'
    cases hb'
    have hinject : bean.isInjectable = true := by
      unfold Bean.isInjectable Bean.isUndecided
      rw [halive, status]
      rfl
    exact ⟨bean, hb, hinject, List.elem_iff.mpr hexport⟩

/-- **An application that is up is closed whether its work succeeds or fails.** The beans with work
begin it one after the other, by their orders and for equal ones as they were registered; each
begins once, and none comes after one that fails. When one failed, or all came to their end and
shutdown was requested, the destroy hooks of all beans are called, each once, bean by bean in the
reverse of the order in which the beans were initialized. The application fails with the fault of
the work, else with that of the first destroy hook that fails, and succeeds if there is neither. If
the work panics, the run ends with the panic, and no destroy hook is called. -/
theorem run_closes {application : Application} (hc : application.container.Fresh)
    (hx : application.start.exec application.container = (.ok (), d)) :
    ((workers d.registry).Nodup ∧ (workers d.registry).Pairwise d.registry.Precedes ∧
      ∀ i, i ∈ workers d.registry ↔
        ∃ bean, d.bean? i = some bean ∧ bean.isAlive = true ∧ workType ∈ bean.exports) ∧
    (d.order.Nodup ∧ (∀ i, i ∈ d.order ↔ ∃ bean, d.bean? i = some bean ∧ bean.isAlive = true) ∧
      d.initializations = application.container.initializations ++ d.order) ∧
    ∃ begun worked rested, Relay (workers d.registry) d begun worked rested ∧
      (begun <+: workers d.registry ∧ (worked = .ok () → begun = workers d.registry)) ∧
      (¬ Panics worked → ∃ closing closed,
        (∀ fault, worked = .error fault → ∃ i bean reason, begun.getLast? = some i ∧
          d.bean? i = some bean ∧ fault = .work (workOf bean).name reason) ∧
        ((ending worked rested).trace .destroy = [] ∧
          (worked = .ok () → (ending worked rested).cancelled = true) ∧
          Container.close.exec (ending worked rested) = (closing, closed)) ∧
        (closed.trace .destroy = d.order.reverse.flatMap (d.registry.hookSteps .destroy) ∧
          (closed.trace .destroy).Nodup) ∧
        closing = (match d.order.reverse.flatMap d.registry.destroyFaults with
          | [] => .ok ()
          | fault :: _ => .error fault) ∧
        application.run.exec application.container = (verdict worked closing, closed)) ∧
      (Panics worked → rested.abandon.trace .destroy = [] ∧
        application.run.exec application.container = (worked, rested.abandon)) := by
  obtain ⟨store, -, hrefresh⟩ := start_ok hx
  have hfresh : ({ application.container with store } : Container).Fresh :=
    ⟨hc.registered, hc.order, hc.calls⟩
  obtain ⟨hup, hinit, hnone⟩ := Container.refresh_up hfresh hrefresh
  obtain ⟨begun, worked, rested, hrelay, hline⟩ := exists_relay (workers d.registry) d
  have hwork : runAllWork.exec d = (worked, rested) := (exec_runAllWork d).trans hline
  have ha : d.Aside (ending worked rested) := hrelay.aside.trans (aside_ending worked rested)
  have horder : (ending worked rested).order = d.order := by rw [ha.same]
  obtain ⟨closed, hclose, -, -, htrace⟩ := Container.close_calls (c := ending worked rested)
    fun i hi => ha.present (hup.present (horder ▸ hi))
  rw [horder, ha.registry] at hclose htrace
  rw [ha.trace, hnone, List.nil_append] at htrace
  have hpresent : ∀ i ∈ workers d.registry, d.Present i := fun i hi => by
    obtain ⟨bean, hb, halive, -⟩ := (mem_workers hup).mp hi
    exact hup.present ((hup.mem_order i).mpr ⟨bean, hb, halive⟩)
  refine ⟨⟨nodup_workers d.registry, Registry.byOrder_sorted (d.registry.candidates_sorted _),
      fun i => mem_workers hup⟩, ⟨hup.nodup, hup.mem_order, hinit⟩,
    begun, worked, rested, hrelay, hrelay.started, fun hp => ?_, fun hp => ?_⟩
  · refine ⟨_, closed, fun fault hfault => ?_, ⟨(ha.trace _).trans hnone, ?_, hclose⟩, ⟨htrace, ?_⟩,
      rfl, (exec_run hx hwork).trans (exec_finish hp hclose)⟩
    · obtain ⟨i, bean, reason | reason, hlast, hb, rfl⟩ := hrelay.fault hfault hpresent
      · exact ⟨i, bean, reason, hlast, hb, rfl⟩
      · exact absurd ⟨reason, hfault⟩ hp
    · rintro rfl
      exact (awaitShutdown_cancelled rested).2
    · rw [htrace]
      exact Registry.nodup_hookSteps (List.nodup_reverse.mpr hup.nodup) .destroy
  · exact ⟨(hrelay.aside.trace .destroy).trans hnone,
      (exec_run hx hwork).trans (exec_finish_of_panics hp rested)⟩

/-- A bean with work, a place among the others, and a destroy hook. -/
def worker (name : String) (order : Int) (actions : List Action) : Definition :=
  { Definition.ofSource ⟨name⟩ name (.object .unit) with
    exports := [⟨name⟩, workType]
    order
    destroy := [[.announce "destroy"]]
    work := some ⟨name, actions⟩ }

/-- Three beans with work, in the reverse of the order in which they do it; the second one does only
this step. -/
def shift (step : Action) : Application :=
  ((Application.empty.addBean (worker "C" 3 [.log "done"])).addBean
    (worker "B" 2 [step])).addBean (worker "A" 1 [.log "done"])

theorem fresh_shift (step : Action) : (shift step).container.Fresh :=
  Container.fresh_register .empty
    [worker "C" 3 [.log "done"], worker "B" 2 [step], worker "A" 1 [.log "done"]]

/-- The state in which the beans begin their work. -/
theorem start_shift (step : Action) : ∃ d,
    (shift step).start.exec (shift step).container = (.ok (), d) ∧
    workers d.registry = [2, 1, 0] ∧
    d.order.reverse.flatMap (d.registry.hookSteps .destroy) = [(2, 0), (1, 0), (0, 0)] ∧
    d.order.reverse.flatMap d.registry.destroyFaults = [] := by
  exact ⟨_, Prod.ext (by cbv) rfl, by cbv, by cbv, by cbv⟩

/-- The work of the second bean fails, and then it panics instead. -/
theorem run_closes_shift :
    (∃ d begun rested closed,
      (shift (.fail "tired")).start.exec (shift (.fail "tired")).container = (.ok (), d) ∧
      Relay [2, 1, 0] d begun (.error (.work "B" "tired")) rested ∧
      (shift (.fail "tired")).run.exec (shift (.fail "tired")).container =
        (.error (.work "B" "tired"), closed) ∧
      closed.trace .destroy = [(2, 0), (1, 0), (0, 0)]) ∧
    ∃ d begun rested,
      (shift (.panic "lost")).start.exec (shift (.panic "lost")).container = (.ok (), d) ∧
      Relay [2, 1, 0] d begun (.error (.core (.panic "lost"))) rested ∧
      (shift (.panic "lost")).run.exec (shift (.panic "lost")).container =
        (.error (.core (.panic "lost")), rested.abandon) ∧
      rested.abandon.trace .destroy = [] := by
  constructor
  · obtain ⟨d, hx, hworkers, hsteps, hfaults⟩ := start_shift (.fail "tired")
    have hrun : ((shift (.fail "tired")).run.exec (shift (.fail "tired")).container).1 =
        .error (.work "B" "tired") := by cbv
    obtain ⟨-, -, begun, worked, rested, hrelay, -, hcloses, hpanics⟩ :=
      run_closes (fresh_shift (.fail "tired")) hx
    by_cases hp : Panics worked
    · rw [(hpanics hp).2] at hrun
      obtain ⟨reason, rfl⟩ := hp
      cases hrun
    · obtain ⟨closing, closed, -, -, ⟨hdestroy, -⟩, rfl, hend⟩ := hcloses hp
      rw [hworkers] at hrelay
      rw [hsteps] at hdestroy
      rw [hfaults] at hend
      rw [hend] at hrun
      obtain rfl := (verdict_ok worked).symm.trans hrun
      exact ⟨d, begun, rested, closed, hx, hrelay, hend, hdestroy⟩
  · obtain ⟨d, hx, hworkers, -, hfaults⟩ := start_shift (.panic "lost")
    have hrun : ((shift (.panic "lost")).run.exec (shift (.panic "lost")).container).1 =
        .error (.core (.panic "lost")) := by cbv
    obtain ⟨-, -, begun, worked, rested, hrelay, -, hcloses, hpanics⟩ :=
      run_closes (fresh_shift (.panic "lost")) hx
    by_cases hp : Panics worked
    · obtain ⟨hnone, hend⟩ := hpanics hp
      rw [hend] at hrun
      change worked = _ at hrun
      subst hrun
      rw [hworkers] at hrelay
      exact ⟨d, begun, rested, hx, hrelay, hend, hnone⟩
    · obtain ⟨closing, closed, -, -, -, rfl, hend⟩ := hcloses hp
      rw [hfaults] at hend
      rw [hend] at hrun
      exact absurd ⟨"lost", (verdict_ok worked).symm.trans hrun⟩ hp

end Application
end BeanContainer
