/-
# Computations that ask injectors

What fills injection points, parameters and fields asks an injector for beans, and does no more than
that but on the side. So a relation between computations that holds of the requests of two injectors,
and is kept by the ways in which such computations are put together, holds of all of them
(`Agreement`); on the other side they may be probed, if the relation admits the probe. The first one
that is used so says that code which asks for beans that are all there, and with it all user code,
does nothing but on the side.

Key definitions: `Run.Mild`, `Agreement`, `Agreement.Agrees`, `Agreement.Source`, `Agreement.live`.
Key theorems: `Agreement.agrees_fill`, `Agreement.agrees_arg`, `Agreement.agrees_parameters`,
`Agreement.agrees_fields`, `Context.beside_ask`, `Action.beside_runAll`.
-/
import BeanContainer.Proofs.Container.Fulfilment
import BeanContainer.Proofs.Container.Probe
import BeanContainer.Proofs.Fault

namespace BeanContainer

variable {α β : Type} {c d : Container}

theorem Fault.isInternal_staged (owner : String) (stage : Stage) (fault : Fault)
    (h : fault.isInternal = false) : (fault.staged owner stage).isInternal = false := by
  cases fault with
  | panic reason => rfl
  | _ => exact h

namespace Run

theorem beside_bind {run : Run α} {next : α → Run β} (h : c.Beside (run.exec c).2)
    (hn : ∀ a d, run.exec c = (.ok a, d) → d.Beside ((next a).exec d).2) :
    c.Beside ((run >>= next).exec c).2 := by
  rcases hr : run.exec c with ⟨fault | a, d⟩ <;> rw [hr] at h
  · rw [exec_bind_error hr]
    exact h
  · rw [exec_bind_ok hr]
    exact h.trans (hn a d hr)

theorem ordinary_bind {run : Run α} {next : α → Run β} (h : Ordinary (run.exec c).1)
    (hn : ∀ a d, run.exec c = (.ok a, d) → Ordinary ((next a).exec d).1) :
    Ordinary ((run >>= next).exec c).1 := by
  rcases hr : run.exec c with ⟨fault | a, d⟩ <;> rw [hr] at h
  · rw [exec_bind_error hr]
    exact h
  · rw [exec_bind_ok hr]
    exact hn a d hr

/-- User code does not fail with a fault of the container. -/
theorem ordinary_ofScript (owner : String) (stage : Stage) (script : Script α) (c : Container) :
    Ordinary ((ofScript owner stage script).exec c).1 := by
  rw [exec_ofScript]
  rcases (script.exec c).1 with upset | a <;> trivial

/-- In `c` the computation does nothing but on the side. If `fit` holds, it does not fail with an
internal fault. -/
structure Mild (fit : Prop) (c : Container) (run : Run α) : Prop where
  beside : c.Beside (run.exec c).2
  ordinary : fit → Ordinary (run.exec c).1

namespace Mild

variable {fit fit' : Prop}

theorem aside {run : Run α} (h : Mild fit c run) : c.Aside (run.exec c).2 := h.beside.aside

theorem imp {run : Run α} (h : Mild fit c run) (hf : fit' → fit) : Mild fit' c run :=
  ⟨h.beside, fun hfit => h.ordinary (hf hfit)⟩

/-- What changes nothing. -/
theorem of_exec {run : Run α} {result : Except Fault α} (h : run.exec c = (result, c))
    (ho : fit → Ordinary result) : Mild fit c run := by
  refine ⟨?_, fun hfit => ?_⟩ <;> rw [h]
  · exact .refl c
  · exact ho hfit

theorem pure (a : α) : Mild fit c (Pure.pure a : Run α) := of_exec rfl fun _ => trivial

theorem throw {fault : Fault} (h : fault.isInternal = false) :
    Mild fit c (MonadExcept.throw fault : Run α) := of_exec rfl fun _ => h

theorem ofExcept {result : Except Fault α} (h : PlainFaults result) :
    Mild fit c (Run.ofExcept result) := of_exec (exec_ofExcept result c) fun _ => h.ordinary

theorem get {next : Container → Run α} (h : Mild fit c (next c)) :
    Mild fit c (MonadState.get >>= next) :=
  ⟨h.beside, h.ordinary⟩

theorem bind {run : Run α} {next : α → Run β} (h : Mild fit c run)
    (hn : ∀ a d, run.exec c = (.ok a, d) → Mild fit d (next a)) : Mild fit c (run >>= next) :=
  ⟨beside_bind h.beside fun a d hx => (hn a d hx).beside,
    fun hfit => ordinary_bind (h.ordinary hfit) fun a d hx => (hn a d hx).ordinary hfit⟩

theorem outcome {run : Run α} (h : c.Beside (run.exec c).2) :
    Mild fit c (liftM (Run.outcome run) : Run (Except Fault α)) := ⟨h, fun _ => trivial⟩

/-- A fault that becomes an answer is none any more, and a panic is not internal. -/
theorem answer {run : Run α} (h : c.Beside (run.exec c).2) : Mild fit c (Run.answer run) := by
  refine ⟨?_, fun _ => ?_⟩ <;> rw [exec_answer]
  · exact h
  · split <;> trivial

/-- The decision of a condition. -/
theorem decideNow (condition : Condition) (c : Container) : Mild fit c condition.decideNow :=
  of_exec (condition.exec_decideNow c) fun _ => c.registry.ordinary_holds c.store condition

theorem ofScript {owner : String} {stage : Stage} {script : Script α}
    (h : c.Beside (script.exec c).2) : Mild fit c (Run.ofScript owner stage script) := by
  refine ⟨?_, fun _ => ordinary_ofScript owner stage script c⟩
  rw [exec_ofScript]
  exact h

end Mild
end Run

theorem Context.beside_find (selector : Selector) (c : Container) :
    c.Beside ((find selector).exec c).2 := by
  unfold find
  rw [Run.exec_bind, exec_requireFrozen]
  cases c.phase.access <;> exact .refl c

/-- Two injectors, and a relation between computations that ask the first one and such that ask the
other. -/
structure Agreement where
  injector : Injector
  other : Injector
  rel : {α : Type} → Run α → Run α → Prop
  /-- It holds of what asks for no bean. -/
  mild : ∀ {α : Type} {run : Run α}, (∀ c, Run.Mild True c run) → rel run run
  bind : ∀ {α β : Type} {run run' : Run α} {next next' : α → Run β}, rel run run' →
    (∀ a, rel (next a) (next' a)) → rel (run >>= next) (run' >>= next')
  guarded : ∀ {α : Type} {run run' : Run α} (owner : String) (stage : Stage), rel run run' →
    rel (Run.guarded owner stage run) (Run.guarded owner stage run')
  /-- It holds of a request, with what is done about its answer. -/
  request : ∀ {α : Type} (want : Want) {next : List Handle → Run α},
    (∀ handles d, Run.Mild (want.lazy = false → ∀ handle ∈ handles, d.Present handle.bean) d
      (next handles)) →
    rel (injector want.type want.tag want.lazy >>= next)
      (other want.type want.tag want.lazy >>= next)

namespace Agreement

variable {m : Agreement}

theorem map (m : Agreement) {run run' : Run α} (f : α → β) (h : m.rel run run') :
    m.rel (f <$> run) (f <$> run') := by
  simp only [← bind_pure_comp]
  exact m.bind h fun a => m.mild fun _ => .pure (f a)

/-- The relation holds of the computation with either injector. -/
def Agrees (m : Agreement) (run : Injector → Run α) : Prop :=
  m.rel (run m.injector) (run m.other)

namespace Agrees

variable {run : Injector → Run α}

theorem of_mild {run : Run α} (h : ∀ c, Run.Mild True c run) : m.Agrees fun _ => run := m.mild h

theorem pure (a : α) : m.Agrees fun _ => (Pure.pure a : Run α) := of_mild fun _ => .pure a

theorem throw {fault : Fault} (h : fault.isInternal = false) :
    m.Agrees fun _ => (MonadExcept.throw fault : Run α) := of_mild fun _ => .throw h

theorem ofExcept {result : Except Fault α} (h : PlainFaults result) :
    m.Agrees fun _ => Run.ofExcept result :=
  of_mild fun _ => .ofExcept h

theorem bind {next : α → Injector → Run β} (h : m.Agrees run) (hn : ∀ a, m.Agrees (next a)) :
    m.Agrees fun injector => run injector >>= fun a => next a injector :=
  m.bind h hn

theorem some (h : m.Agrees run) :
    m.Agrees fun injector => run injector >>= fun a => Pure.pure (Option.some a) :=
  h.bind fun a => .pure (Option.some a)

theorem request (want : Want) {next : List Handle → Run α}
    (h : ∀ handles d, Run.Mild (want.lazy = false → ∀ handle ∈ handles, d.Present handle.bean) d
      (next handles)) :
    m.Agrees fun injector => injector want.type want.tag want.lazy >>= next :=
  m.request want h

end Agrees

/-! ### Injection points -/

theorem agrees_atMostOne (m : Agreement) (type : TypeName) (tag : AutowireTag) (lazy : Bool)
    {next : Option Handle → Run α} (hnone : ∀ d, Run.Mild True d (next none))
    (hsome : ∀ handle d, Run.Mild (lazy = false → d.Present handle.bean) d (next (some handle))) :
    m.Agrees fun injector => Injection.atMostOne injector type tag lazy >>= next := by
  unfold Injection.atMostOne
  simp only [bind_assoc]
  refine .request ⟨type, tag, lazy⟩ fun handles d => ?_
  match handles with
  | [] =>
    dsimp only
    split
    · exact (hnone d).imp fun _ => trivial
    · exact .throw rfl
  | [handle] => exact (hsome handle d).imp fun hp hl => hp hl handle List.mem_cons_self
  | _ :: _ :: _ => exact .throw rfl

theorem agrees_several (m : Agreement) (type : TypeName) (tag : AutowireTag)
    {next : List Handle → Run α}
    (h : ∀ handles d, Run.Mild (∀ handle ∈ handles, d.Present handle.bean) d (next handles)) :
    m.Agrees fun injector => Injection.several injector type tag >>= next := by
  unfold Injection.several
  simp only [bind_assoc]
  refine .request ⟨type, tag, false⟩ fun handles d => ?_
  split
  · exact .throw rfl
  · exact (h handles d).imp fun hp => hp rfl

theorem mild_require (handle : Handle) (d : Container) :
    Run.Mild (d.Present handle.bean) d handle.require := by
  by_cases hp : d.Present handle.bean
  · exact .of_exec (Handle.exec_require hp) fun _ => trivial
  · refine ⟨?_, fun h => absurd h hp⟩
    unfold Handle.require
    rw [Run.exec_get_bind]
    split <;> exact .refl d

/-- References to beans that have to be there, with what is done about each. -/
theorem mild_mapM {f : Handle → Run α}
    (h : ∀ handle d, Run.Mild (d.Present handle.bean) d (f handle)) (handles : List Handle)
    (d : Container) :
    Run.Mild (∀ handle ∈ handles, d.Present handle.bean) d (handles.mapM f) := by
  induction handles generalizing d with
  | nil => exact .pure []
  | cons handle rest ih =>
    rw [List.mapM_cons]
    have hone := (h handle d).imp fun hall : ∀ other ∈ handle :: rest, d.Present other.bean =>
      hall handle List.mem_cons_self
    refine hone.bind fun a e hx => ?_
    have ha := hone.beside
    rw [hx] at ha
    refine .bind ((ih e).imp fun hall other hm => ?_) fun as e' _ => .pure _
    exact ha.aside.present (hall other (List.mem_cons_of_mem handle hm))

/-- **The relation holds of what fills an injection point.** -/
theorem agrees_fill (m : Agreement) (tag : AutowireTag) (injection : Injection) :
    m.Agrees fun injector => injection.fill injector tag := by
  obtain ⟨receiver, type⟩ := injection
  cases receiver with
  | one =>
    refine m.agrees_atMostOne type _ false (fun _ => .throw rfl) fun handle d => ?_
    exact (mild_require handle d).imp fun hp => hp rfl
  | optional =>
    refine m.agrees_atMostOne type tag false (fun _ => .pure _) fun handle d => ?_
    exact (mild_require handle d).imp fun hp => hp rfl
  | many =>
    refine m.agrees_several type tag fun handles d => ?_
    refine .bind ?_ fun values e _ => .pure _
    exact mild_mapM mild_require handles d
  | byId =>
    refine m.agrees_several type tag fun handles d => ?_
    refine .bind ?_ fun values e _ => .pure _
    refine mild_mapM (fun handle d => ?_) handles d
    exact (mild_require handle d).bind fun value e _ => .pure _
  | lazy => exact m.agrees_atMostOne type tag true (fun _ => .pure _) fun _ _ => .pure _
  | context => exact .pure _
  | survey lazy probe =>
    unfold Injection.fill Injection.survey
    simp only [bind_assoc]
    refine .request ⟨type, tag, lazy⟩ fun handles d => ?_
    refine .get ?_
    refine (Run.Mild.answer ?_).bind fun decision e _ => .pure _
    rw [probe.exec_decideNow]
    exact .refl d

/-! ### Parameters -/

theorem agrees_fromBeans (m : Agreement) (tag : AutowireTag) (type : ParamType) :
    m.Agrees fun injector => type.fromBeans injector tag := by
  match type with
  | .bound .. | .settings .. => exact .throw rfl
  | .injected ⟨receiver, bean⟩ =>
    have hf := fun receiver => m.agrees_fill tag ⟨receiver, bean⟩
    cases receiver with
    | optional => exact m.agrees_fill { tag with optional := true } ⟨.optional, bean⟩
    | one => exact hf .one
    | many => exact hf .many
    | byId => exact hf .byId
    | lazy => exact hf .lazy
    | context => exact hf .context
    | survey lazy probe => exact hf (.survey lazy probe)

theorem agrees_fromProperty (m : Agreement) (expression : String) (type : ParamType) :
    m.Agrees fun _ => type.fromProperty expression := by
  match type with
  | .injected injection => exact .throw rfl
  | .bound _ schema | .settings _ schema =>
    refine .of_mild fun c => .get (.bind (.ofExcept ?_) fun data d _ => .pure _)
    exact c.store.plain_bindExpression expression schema

theorem agrees_fromNothing (m : Agreement) (type : ParamType) :
    m.Agrees fun _ => type.fromNothing := by
  unfold ParamType.fromNothing
  cases type.zero? with
  | none => exact .throw rfl
  | some value => exact .pure value

/-- What an argument gives with the injector, and what it gives with the other one. -/
structure Source (m : Agreement) where
  filler : Filler
  other : Filler
  agrees : ∀ type, m.rel (filler type) (other type)

/-- Beans by the type of the parameter. -/
def Source.byType (m : Agreement) : Source m where
  filler := .byType m.injector
  other := .byType m.other
  agrees type := (m.agrees_fromBeans .byType type).some

theorem agrees_single (source : Source m) (type : ParamType) :
    m.rel (source.filler.single type) (source.other.single type) := by
  unfold Filler.single
  refine m.bind (source.agrees type) fun value => ?_
  cases value with
  | none => exact m.agrees_fromNothing type
  | some value => exact Agrees.pure value

theorem agrees_variadic (type : ParamType) (sources : List (Source m)) :
    m.rel (Filler.several type (sources.map (·.filler)))
      (Filler.several type (sources.map (·.other))) := by
  induction sources with
  | nil => exact Agrees.pure _
  | cons source rest ih =>
    refine m.bind (source.agrees type) fun value => ?_
    cases value with
    | none => exact ih
    | some value => exact m.bind ih fun values => Agrees.pure (value :: values)

theorem agrees_values (tail : List (Source m)) (params : List Parameter) (slots : List (Source m)) :
    m.rel (Callable.values (.byType m.injector) (tail.map (·.filler)) params
        (slots.map (·.filler)))
      (Callable.values (.byType m.other) (tail.map (·.other)) params (slots.map (·.other))) := by
  induction params generalizing slots with
  | nil => exact Agrees.pure _
  | cons parameter rest ih =>
    have hone : ∀ slot : Source m,
        m.rel (Callable.valueOf parameter slot.filler (tail.map (·.filler)))
          (Callable.valueOf parameter slot.other (tail.map (·.other))) := by
      intro slot
      unfold Callable.valueOf
      split
      · exact m.map Value.list (agrees_variadic parameter.type tail)
      · exact agrees_single slot parameter.type
    cases slots with
    | nil =>
      refine m.bind (hone (Source.byType m)) fun value => ?_
      exact m.bind (ih []) fun values => Agrees.pure (value :: values)
    | cons slot more =>
      refine m.bind (hone slot) fun value => ?_
      exact m.bind (ih more) fun values => Agrees.pure (value :: values)

/-! ### Calls and arguments -/

theorem agrees_callFor (callable : Callable) (wanted : TypeName)
    (arguments : List (Placing (Source m))) :
    m.rel (callable.callFor m.injector wanted (arguments.map (Placing.map (·.filler))))
      (callable.callFor m.other wanted (arguments.map (Placing.map (·.other)))) := by
  have hf := callable.place_map (fun source : Source m => source.filler) (Source.byType m) arguments
  have ho := callable.place_map (fun source : Source m => source.other) (Source.byType m) arguments
  change callable.place (Filler.byType m.injector) _ = _ at hf
  change callable.place (Filler.byType m.other) _ = _ at ho
  unfold Callable.callFor
  rw [hf, ho]
  rcases hp : callable.place (Source.byType m) arguments with reason | placement
  · exact Agrees.throw (Fault.isInternal_of_isPlain (Callable.plain_place hp))
  · have hcall : ∀ values, m.Agrees fun _ =>
        Run.ofScript callable.name .call (callable.body values) := fun values =>
      .of_mild fun c => .ofScript (Supply.beside_body callable values c)
    refine m.bind (m.guarded _ _ (m.bind (agrees_values _ _ _) hcall)) fun value => ?_
    split
    · exact Agrees.pure value
    · exact Agrees.throw rfl

theorem agrees_isGiven (m : Agreement) (condition : Option Condition) :
    m.Agrees fun _ => Arg.isGiven condition := by
  cases condition with
  | none => exact .pure true
  | some condition => exact .of_mild fun c => .decideNow condition c

/-- The probe may be put around the other one of two computations. -/
def Admits (m : Agreement) (probe : Probe) : Prop :=
  ∀ {α : Type} {run other : Run α}, m.rel run other → m.rel run (probe.around other)

theorem admits_none (m : Agreement) : m.Admits .none := fun h => h

variable {probe : Probe}

mutual

/-- **The relation holds of what an argument gives**, probed on the other side. -/
theorem agrees_arg (hp : m.Admits probe) : ∀ (argument : Arg) (type : ParamType),
    m.rel (argument.filler m.injector type) (argument.probed probe m.other type)
  | .value type fixed, wanted => by
    unfold Arg.filler Arg.probed Arg.filler
    refine hp ?_
    split
    · exact Agrees.pure (Option.some fixed)
    · exact Agrees.throw rfl
  | .nil, wanted => by
    unfold Arg.filler Arg.probed Arg.filler
    exact hp (m.agrees_fromNothing wanted).some
  | .expression text, wanted => by
    unfold Arg.filler Arg.probed Arg.filler
    refine hp ?_
    split
    · exact (m.agrees_fromProperty text wanted).some
    · exact m.bind (Agrees.ofExcept (AutowireTag.plain_parse text)) fun tag =>
        (m.agrees_fromBeans tag wanted).some
  | .bean tag, wanted => by
    unfold Arg.filler Arg.probed Arg.filler
    exact hp (m.agrees_fromBeans tag wanted).some
  | .index _ argument, wanted => by
    unfold Arg.filler Arg.probed
    exact agrees_arg hp argument wanted
  | .option callable arguments condition, wanted => by
    obtain ⟨sources, hf, ho⟩ := sources_args hp arguments
    unfold Arg.filler Arg.probed
    rw [hf, ho]
    refine hp (m.bind (m.agrees_isGiven condition) fun given => ?_)
    cases given with
    | true =>
      exact m.bind (agrees_callFor callable wanted.name sources) fun value => Agrees.pure (some value)
    | false => exact Agrees.pure none
  | .call callable arguments, wanted => by
    obtain ⟨sources, hf, ho⟩ := sources_args hp arguments
    unfold Arg.filler Arg.probed
    rw [hf, ho]
    refine hp (m.bind (agrees_callFor callable wanted.name sources) fun value => ?_)
    exact Agrees.pure (some value)

theorem sources_args (hp : m.Admits probe) : ∀ arguments : List Arg,
    ∃ sources : List (Placing (Source m)),
      Arg.fillers m.injector arguments = sources.map (Placing.map (·.filler)) ∧
        Arg.probedList probe m.other arguments = sources.map (Placing.map (·.other))
  | [] => ⟨[], by simp [Arg.fillers], by simp [Arg.probedList]⟩
  | argument :: rest => by
    obtain ⟨sources, hf, ho⟩ := sources_args hp rest
    refine ⟨argument.asking ⟨_, _, agrees_arg hp argument⟩ :: sources, ?_, ?_⟩
    · rw [Arg.fillers, hf, List.map_cons, Arg.asking_map]
    · rw [Arg.probedList, ho, List.map_cons, Arg.asking_map]

end

/-- What an argument gives, probed on the other side. -/
def Source.ofArg (hp : m.Admits probe) (argument : Arg) : Source m :=
  ⟨_, _, agrees_arg hp argument⟩

/-- The relation holds of the values that the parameters of a constructor get. -/
theorem agrees_parameters (hp : m.Admits probe) (params : List Parameter)
    (arguments : Placement Arg) :
    m.rel (Callable.values (.byType m.injector) (arguments.map (Arg.filler m.injector)).tail params
        (arguments.map (Arg.filler m.injector)).slots)
      (Callable.values (.byType m.other) (arguments.map (Arg.probed probe m.other)).tail params
        (arguments.map (Arg.probed probe m.other)).slots) := by
  have h := agrees_values (arguments.tail.map (Source.ofArg hp)) params
    (arguments.slots.map (Source.ofArg hp))
  simp only [List.map_map] at h
  exact h

/-! ### Fields -/

theorem agrees_step (m : Agreement) (owner : String) (definition : Definition)
    (step : FieldStep) : m.Agrees fun injector => step.run injector owner definition := by
  cases step with
  | announce => exact .of_mild fun c => ⟨c.beside_note rfl nofun, fun _ => trivial⟩
  | value name tag validator schema =>
    refine Agrees.bind (.ofExcept ?_) fun target => ?_
    · exact (Target.reading_ofTag tag).plain.bind fun _ => trivial
    · refine .of_mild fun c => .get (.bind (.ofExcept ?_) fun data d _ => .pure _)
      exact c.store.plain_bindTo target schema
  | autowire name tag injection =>
    refine Agrees.bind (.ofExcept (AutowireTag.plain_parse tag)) fun tag => ?_
    exact (m.agrees_fill tag injection).bind fun value => .pure (Option.some (name, value))
  | logger name => exact .pure _
  | find name selector =>
    refine .of_mild fun c => ?_
    have hfind : Run.Mild True c (liftM (Run.outcome (Context.find selector)) : Run _) :=
      .outcome (Context.beside_find selector c)
    exact hfind.bind fun answer d _ => .pure (Option.some (name, Value.summaries answer))
  | property name key => exact .of_mild fun c => .of_exec rfl fun _ => trivial
  | shutdown => exact .of_mild fun c => ⟨c.beside_requestShutdown, fun _ => trivial⟩
  | fail reason => exact .throw rfl
  | panic reason => exact .throw rfl

theorem agrees_steps (hp : m.Admits probe) (owner : String) (definition : Definition)
    (steps : List FieldStep) :
    m.rel (FieldStep.runAll m.injector owner definition steps)
      (FieldStep.probedAll probe m.other owner definition steps) := by
  induction steps with
  | nil => exact Agrees.pure _
  | cons step rest ih =>
    refine m.bind (hp (m.agrees_step owner definition step)) fun field => ?_
    exact m.bind ih fun fields => Agrees.pure (field.toList ++ fields)

/-- **The relation holds of the wiring of fields**, probed on the other side. -/
theorem agrees_fields (hp : m.Admits probe) (owner : String) (definition : Definition) :
    m.rel (definition.wireFields m.injector owner)
      (definition.probedFields probe m.other owner) :=
  m.guarded owner .wire (agrees_steps hp owner definition definition.fields)

end Agreement

/-! ### Beans that are all there -/

/-- What asks for beans that are all there does nothing but on the side. -/
def Agreement.live : Agreement where
  injector := Context.live
  other := Context.live
  rel run _ := ∀ c, c.Beside (run.exec c).2
  mild h c := (h c).beside
  bind h hn c := Run.beside_bind (h c) fun a d _ => hn a d
  guarded owner stage h c := by
    rw [Run.exec_guarded]
    exact h c
  request want next h c := by
    refine Run.beside_bind ?_ fun handles d _ => (h handles d).beside
    unfold Context.live
    rw [Run.exec_get_bind]
    dsimp only
    cases c.registry.select want.type want.tag <;> exact .refl c

/-- A request of user code does nothing but on the side. -/
theorem Context.beside_ask (request : Request) (c : Container) :
    c.Beside ((Context.ask request).exec c).2 := by
  have hfrozen : ∀ {α : Type} {run : Run α}, c.Beside (run.exec c).2 →
      c.Beside ((requireFrozen >>= fun _ => run).exec c).2 := by
    intro α run h
    rw [Run.exec_bind, exec_requireFrozen]
    cases c.phase.access with
    | error fault => exact .refl c
    | ok => exact h
  have hproperties : c.Beside (requireProperties.exec c).2 := by
    unfold requireProperties
    rw [Run.exec_get_bind]
    cases c.properties? <;> exact .refl c
  cases request with
  | find selector =>
    unfold ask
    rw [Run.exec_map]
    exact beside_find selector c
  | get tag injection =>
    refine Run.beside_bind (hfrozen ?_) fun value d _ => .refl d
    refine Run.beside_bind ?_ fun parsed d _ => Agreement.live.agrees_fill parsed injection d
    rw [Run.exec_ofExcept]
    exact .refl c
  | property key => exact .refl c
  | keys => exact .refl c
  | keyCount => exact Run.beside_bind hproperties fun store d _ => .refl d
  | bind tag schema =>
    refine Run.beside_bind hproperties fun store d _ => Run.beside_bind ?_ fun data e _ => .refl e
    rw [Run.exec_ofExcept]
    exact .refl d
  | cancelled => exact .refl c
  | shutdown => exact c.beside_requestShutdown
  | describe => exact .refl c
  | invoke callable arguments =>
    refine Run.beside_bind (hfrozen ?_) fun value d _ => .refl d
    obtain ⟨sources, hs, -⟩ := Agreement.sources_args (Agreement.admits_none .live) arguments
    change Arg.fillers live arguments = _ at hs
    rw [hs]
    exact Agreement.agrees_callFor callable callable.output sources c

/-- While the beans are being made, a request does not fail with an internal fault. -/
theorem Context.ordinary_ask (request : Request) (h : c.phase = .refreshing) :
    Ordinary ((Context.ask request).exec c).1 := by
  have hfrozen : c.phase.access = .error (.usage .notRefreshed) := by rw [h]; rfl
  cases request with
  | find selector =>
    have hx : (find selector).exec c = (.error (.usage .notRefreshed), c) := exec_refused hfrozen
    unfold ask
    rw [Run.exec_map, hx]
    rfl
  | get tag injection =>
    unfold ask get
    rw [Run.exec_bind_error (exec_refused hfrozen)]
    rfl
  | keyCount =>
    unfold ask
    rw [Run.exec_bind_ok (exec_requireProperties h)]
    trivial
  | bind tag schema =>
    have ho := (c.store.plain_bind tag schema).ordinary
    unfold ask
    rw [Run.exec_bind_ok (exec_requireProperties h), Run.exec_bind, Run.exec_ofExcept]
    rcases hb : c.store.bind tag schema with fault | data
    · rw [hb] at ho
      exact ho
    · trivial
  | invoke callable arguments =>
    unfold ask invoke
    rw [Run.exec_bind_error (exec_refused hfrozen)]
    rfl
  | property | keys | cancelled | shutdown | describe => trivial

theorem Action.beside_run (scene : Scene) (action : Action) (c : Container) :
    c.Beside (Script.exec (action.run scene) c).2 := by
  cases action with
  | announce event => exact c.beside_note rfl nofun
  | log text => exact c.beside_note rfl nofun
  | fail reason => exact .refl c
  | panic reason => exact .refl c
  | showField name => exact c.beside_note rfl nofun
  | ask request =>
    simp only [run]
    by_cases hs : scene.hasContext = true
    · have ha := Context.beside_ask request c
      rw [if_pos hs, Script.exec_bind, Script.exec_outcome]
      rcases hr : (Context.ask request).exec c with ⟨fault | reply, d⟩ <;> rw [hr] at ha
      · cases fault with
        | panic reason => exact ha
        | _ => exact ha.trans (d.beside_note rfl nofun)
      · exact ha.trans (d.beside_note rfl nofun)
    · rw [if_neg hs]
      exact .refl c
  | shutdown => exact c.beside_requestShutdown

/-- **Steps of user code do nothing but on the side.** -/
theorem Action.beside_runAll (scene : Scene) (actions : List Action) (c : Container) :
    c.Beside (Script.exec (runAll scene actions) c).2 := by
  induction actions generalizing c with
  | nil => exact .refl c
  | cons action rest ih =>
    have ha := beside_run scene action c
    show c.Beside (Script.exec (action.run scene >>= fun _ => runAll scene rest) c).2
    rw [Script.exec_bind]
    rcases hr : Script.exec (action.run scene) c with ⟨upset | u, d⟩ <;> rw [hr] at ha
    · exact ha
    · exact ha.trans (ih d)

theorem Action.aside_runAll (scene : Scene) (actions : List Action) (c : Container) :
    c.Aside (Script.exec (runAll scene actions) c).2 :=
  (beside_runAll scene actions c).aside

end BeanContainer
