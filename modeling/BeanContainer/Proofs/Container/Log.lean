/-
# The log of the making of beans

What is noted while beans are being made follows the stack of beans under construction. A bean that
is entered goes on the stack, and that happens only while shutdown was not requested; code is called
of the bean on top, and its making is the one that comes to its end. So the log is a run of a machine
whose state can be read off the log so far (`Moment`), whatever the beans are and however the making
ends (`Wiring.logged_wire`).

Key definitions: `Moment`, `Moment.Admits`, `Moment.Allows`, `Container.Logs`, `Run.Logged`,
`Agreement.logged`.
Key theorems: `Moment.Allows.not_entered`, `Moment.Allows.mem_stack`, `Wiring.logged_build`,
`Wiring.logged_wire`, `Container.logged_wireBeans`.
-/
import BeanContainer.Proofs.Container.Refresh

namespace BeanContainer

/-- A moment of the making of beans: those that are under construction, and whether shutdown was
requested. -/
structure Moment where
  stack : List ℕ
  halted : Bool

namespace Moment

/-- The moment after an event. -/
def next (s : Moment) : Event → Moment
  | .entered i => { s with stack := s.stack ++ [i] }
  | .initialized _ => { s with stack := s.stack.dropLast }
  | .shutdown => { s with halted := true }
  | _ => s

/-- The moment after the events of a log. -/
def after (s : Moment) (log : List Event) : Moment := log.foldl next s

/-- The event may happen at the moment: a bean is entered before shutdown is requested, and what else
happens to a bean happens to the one on top. -/
def Admits (s : Moment) : Event → Prop
  | .entered _ => s.halted = false
  | .called _ i _ | .initialized i => s.stack.getLast? = some i
  | _ => True

/-- The events of the log may happen one after the other. -/
def Allows (s : Moment) : List Event → Prop
  | [] => True
  | event :: rest => s.Admits event ∧ (s.next event).Allows rest

variable {s : Moment} {log front back : List Event} {i : ℕ}

theorem after_append (s : Moment) (front back : List Event) :
    s.after (front ++ back) = (s.after front).after back := List.foldl_append

theorem allows_append : s.Allows (front ++ back) ↔ s.Allows front ∧ (s.after front).Allows back := by
  induction front generalizing s with
  | nil => exact (and_iff_right trivial).symm
  | cons event rest ih => exact (and_congr_right fun _ => ih).trans and_assoc.symm

/-- Shutdown is requested where the log says so, and that is not taken back. -/
theorem halted_after : (s.after log).halted = true ↔ s.halted = true ∨ .shutdown ∈ log := by
  induction log generalizing s with
  | nil => exact (or_iff_left List.not_mem_nil).symm
  | cons event rest ih =>
    change ((s.next event).after rest).halted = true ↔ _
    rw [ih, List.mem_cons]
    cases event <;> simp [next]

/-- **No bean is entered once shutdown was requested.** -/
theorem Allows.not_entered (ha : s.Allows log) (h : s.halted = true) : .entered i ∉ log := by
  intro hm
  obtain ⟨front, back, rfl⟩ := List.append_of_mem hm
  have hadmits := (allows_append.mp ha).2.1
  unfold Admits at hadmits
  rw [halted_after.mpr (.inl h)] at hadmits
  cases hadmits

/-- What is on the stack was there before, or was entered. -/
theorem mem_stack_of_after (h : i ∈ (s.after log).stack) : i ∈ s.stack ∨ .entered i ∈ log := by
  induction log generalizing s with
  | nil => exact .inl h
  | cons event rest ih =>
    rcases ih h with hi | hi
    · cases event with
      | entered j =>
        rcases List.mem_append.mp hi with hi | hi
        · exact .inl hi
        · obtain rfl := List.mem_singleton.mp hi
          exact .inr List.mem_cons_self
      | initialized j => exact .inl (List.mem_of_mem_dropLast hi)
      | _ => exact .inl hi
    · exact .inr (List.mem_cons_of_mem _ hi)

/-- What goes off the stack comes to its end. -/
theorem Allows.mem_after (ha : s.Allows log) (h : i ∈ s.stack ∨ .entered i ∈ log) :
    i ∈ (s.after log).stack ∨ .initialized i ∈ log := by
  induction log generalizing s with
  | nil => exact .inl (h.resolve_right List.not_mem_nil)
  | cons event rest ih =>
    have hnext : (i ∈ (s.next event).stack ∨ .entered i ∈ rest) ∨ event = .initialized i := by
      rcases h with hi | hi
      · cases event with
        | entered j => exact .inl (.inl (List.mem_append_left _ hi))
        | initialized j =>
          obtain ⟨below, hbelow⟩ := List.getLast?_eq_some_iff.mp ha.1
          rw [hbelow] at hi
          rcases List.mem_append.mp hi with hi | hi
          · refine .inl (.inl ?_)
            show i ∈ s.stack.dropLast
            rw [hbelow, List.dropLast_concat]
            exact hi
          · exact .inr (by rw [List.mem_singleton.mp hi])
        | _ => exact .inl (.inl hi)
      · rcases List.mem_cons.mp hi with rfl | hi
        · exact .inl (.inl List.mem_concat_self)
        · exact .inl (.inr hi)
    rcases hnext with hi | rfl
    · exact (ih ha.2 hi).imp_right (List.mem_cons_of_mem event)
    · exact .inr List.mem_cons_self

/-- **What happens to a bean happens while it is on the stack**, so it is there or is entered on the
way. -/
theorem Allows.mem_stack (ha : s.Allows log)
    (h : .initialized i ∈ log ∨ ∃ stage step, .called stage i step ∈ log) :
    i ∈ s.stack ∨ .entered i ∈ log := by
  have htop : ∃ front back, log = front ++ back ∧ (s.after front).stack.getLast? = some i := by
    rcases h with hm | ⟨stage, step, hm⟩ <;> obtain ⟨front, back, rfl⟩ := List.append_of_mem hm <;>
      exact ⟨front, _, rfl, (allows_append.mp ha).2.1⟩
  obtain ⟨front, back, rfl, hlast⟩ := htop
  exact (mem_stack_of_after (List.mem_of_getLast? hlast)).imp_right (List.mem_append_left back)

/-- Events that are no steps in the making of beans may happen at any moment, and leave the stack as it
is. -/
theorem allows_quiet (hq : ∀ event ∈ log, event.isStep = false) :
    s.Allows log ∧ (s.after log).stack = s.stack := by
  induction log generalizing s with
  | nil => exact ⟨trivial, rfl⟩
  | cons event rest ih =>
    have hevent := hq event List.mem_cons_self
    obtain ⟨ha, hs⟩ := ih (s := s.next event) fun e he => hq e (List.mem_cons_of_mem event he)
    change _ ∧ ((s.next event).after rest).stack = _
    rw [hs]
    cases event with
    | entered | called | initialized => cases hevent
    | _ => exact ⟨⟨trivial, ha⟩, rfl⟩

end Moment

namespace Container

variable {c d e : Container} {stack stack' stack'' : List ℕ} {log log' : List Event} {i : ℕ}

/-- The moment of a container with these beans under construction. -/
def moment (c : Container) (stack : List ℕ) : Moment := ⟨stack, c.cancelled⟩

/-- From `c`, with the beans of `stack` under construction, to `d`, with those of `stack'`, happened
what the log says. Beans that were neither under construction nor entered are as they were. -/
structure Logs (stack : List ℕ) (log : List Event) (stack' : List ℕ) (c d : Container) : Prop where
  events : d.events = c.events ++ log
  allowed : (c.moment stack).Allows log
  moment : (c.moment stack).after log = d.moment stack'
  order : d.order = c.order ++ log.filterMap initializedBean
  length : d.registry.beans.length = c.registry.beans.length
  untouched : ∀ i ∉ stack, .entered i ∉ log → d.bean? i = c.bean? i

theorem Logs.trans (h : Logs stack log stack' c d) (h' : Logs stack' log' stack'' d e) :
    Logs stack (log ++ log') stack'' c e where
  events := by rw [h'.events, h.events, List.append_assoc]
  allowed := by
    rw [Moment.allows_append, h.moment]
    exact ⟨h.allowed, h'.allowed⟩
  moment := by rw [Moment.after_append, h.moment, h'.moment]
  order := by rw [h'.order, h.order, List.filterMap_append, List.append_assoc]
  length := h'.length.trans h.length
  untouched i hi hlog := by
    have hfirst : .entered i ∉ log := fun hm => hlog (List.mem_append_left _ hm)
    have hmiddle : i ∉ stack' := by
      intro hm
      have hm : i ∈ ((c.moment stack).after log).stack := by rwa [h.moment]
      exact (Moment.mem_stack_of_after hm).elim hi hfirst
    have hsecond := h'.untouched i hmiddle fun hm => hlog (List.mem_append_right _ hm)
    exact hsecond.trans (h.untouched i hi hfirst)

theorem Logs.entries (h : Logs stack log stack' c d) :
    d.entries = c.entries ++ log.filterMap enteredBean := by
  unfold Container.entries
  rw [h.events, List.filterMap_append]

theorem Beside.logs (h : c.Beside d) (stack : List ℕ) : ∃ log, Logs stack log stack c d := by
  obtain ⟨quiet, hq, hquiet, hflag⟩ := h.events
  obtain ⟨hallowed, hstack⟩ := Moment.allows_quiet (s := c.moment stack) hquiet
  have hnone : quiet.filterMap initializedBean = [] := by
    refine List.filterMap_eq_nil_iff.mpr fun event he => ?_
    have hn := hquiet event he
    cases event with
    | initialized => cases hn
    | _ => rfl
  refine ⟨quiet, hq, hallowed, ?_, ?_, ?_, fun i _ _ => h.aside.bean? i⟩
  · have hsame : ((c.moment stack).after quiet).halted = d.cancelled :=
      Bool.eq_iff_iff.mpr (Moment.halted_after.trans hflag.symm)
    show Moment.mk ((c.moment stack).after quiet).stack ((c.moment stack).after quiet).halted = _
    rw [hstack, hsame]
    rfl
  · rw [h.same, hnone, List.append_nil]
  · rw [h.aside.registry]

/-- The bean on the stack changes. -/
theorem logs_modifyBean (c : Container) (hi : i ∈ stack) (change : Bean → Bean) :
    Logs stack [] stack c (c.modifyBean i change) where
  events := (List.append_nil _).symm
  allowed := trivial
  moment := rfl
  order := (List.append_nil _).symm
  length := List.length_modify _ _ _
  untouched j hj _ := by
    rw [bean?_modifyBean, if_neg]
    rintro rfl
    exact hj hi

theorem logs_note {event : Event} (ha : (c.moment stack).Admits event)
    (hm : (c.moment stack).next event = c.moment stack')
    (hn : initializedBean event = none) : Logs stack [event] stack' c (c.note event) where
  events := rfl
  allowed := ⟨ha, trivial⟩
  moment := hm
  order := by
    rw [List.filterMap_cons, hn]
    exact (List.append_nil _).symm
  length := rfl
  untouched _ _ _ := rfl

/-- A bean is entered while shutdown was not requested. -/
theorem logs_entered (hc : c.cancelled = false) (stack : List ℕ) (i : ℕ) :
    Logs stack [.entered i] (stack ++ [i]) c (c.note (.entered i)) :=
  logs_note hc rfl rfl

/-- Code is called of the bean on top. -/
theorem logs_called (c : Container) (stage : Stage) (stack : List ℕ) (i step : ℕ) :
    Logs (stack ++ [i]) [.called stage i step] (stack ++ [i]) c (c.note (.called stage i step)) :=
  logs_note List.getLast?_concat rfl rfl

/-- The making of the bean on top comes to its end. -/
theorem logs_finished (c : Container) (stack : List ℕ) (i : ℕ) :
    Logs (stack ++ [i]) [.initialized i] stack c (c.finished i) where
  events := rfl
  allowed := ⟨List.getLast?_concat, trivial⟩
  moment := by
    show Moment.mk (stack ++ [i]).dropLast _ = _
    rw [List.dropLast_concat]
    rfl
  order := rfl
  length := rfl
  untouched _ _ _ := rfl

end Container

/-! ### Computations -/

namespace Run

open Container (Logs)

variable {α β : Type} {c d : Container} {stack stack' stack'' : List ℕ}

/-- In `c`, with the beans of `stack` under construction, the computation notes what is allowed. If it
succeeds, those of `stack'` are under construction then. -/
def Logged (stack stack' : List ℕ) (c : Container) (run : Run α) : Prop :=
  ∃ log top, Logs stack log top c (run.exec c).2 ∧ ∀ a, (run.exec c).1 = .ok a → top = stack'

namespace Logged

theorem of_logs {run : Run α} (h : ∃ log, Logs stack log stack' c (run.exec c).2) :
    Logged stack stack' c run := by
  obtain ⟨log, hlog⟩ := h
  exact ⟨log, stack', hlog, fun _ _ => rfl⟩

theorem of_beside {run : Run α} (h : c.Beside (run.exec c).2) : Logged stack stack c run :=
  of_logs (h.logs stack)

theorem pure (a : α) : Logged stack stack c (Pure.pure a : Run α) := of_beside (.refl c)

theorem throw (fault : Fault) : Logged stack stack c (MonadExcept.throw fault : Run α) :=
  of_beside (.refl c)

theorem congr {run : Run α} {other : Run β} (h : Logged stack stack' c run)
    (hc : (other.exec c).2 = (run.exec c).2)
    (hr : ∀ b, (other.exec c).1 = .ok b → ∃ a, (run.exec c).1 = .ok a) :
    Logged stack stack' c other := by
  obtain ⟨log, top, hlog, hok⟩ := h
  refine ⟨log, top, hc ▸ hlog, fun b hb => ?_⟩
  obtain ⟨a, ha⟩ := hr b hb
  exact hok a ha

theorem get {next : Container → Run α} (h : Logged stack stack' c (next c)) :
    Logged stack stack' c (MonadState.get >>= next) := h

theorem bind {run : Run α} {next : α → Run β} (h : Logged stack stack' c run)
    (hn : ∀ a d, run.exec c = (.ok a, d) → Logged stack' stack'' d (next a)) :
    Logged stack stack'' c (run >>= next) := by
  obtain ⟨log, top, hlog, hok⟩ := h
  rcases hr : run.exec c with ⟨fault | a, d⟩ <;> rw [hr] at hlog hok
  · refine ⟨log, top, ?_, fun b hb => ?_⟩
    · rw [exec_bind_error hr]
      exact hlog
    · rw [exec_bind_error hr] at hb
      cases hb
  · obtain rfl := hok a rfl
    obtain ⟨log', top', hlog', hok'⟩ := hn a d hr
    refine ⟨log ++ log', top', ?_, fun b hb => ?_⟩
    · rw [exec_bind_ok hr]
      exact hlog.trans hlog'
    · rw [exec_bind_ok hr] at hb
      exact hok' b hb

theorem modify {f : Container → Container} {next : PUnit → Run α} {log : List Event}
    (hf : Logs stack log stack' c (f c)) (h : Logged stack' stack'' (f c) (next ⟨⟩)) :
    Logged stack stack'' c (modify f >>= next) :=
  bind (of_logs ⟨log, hf⟩) fun _ d hx => by
    cases hx
    exact h

theorem guarded {run : Run α} (owner : String) (stage : Stage) (h : Logged stack stack' c run) :
    Logged stack stack' c (Run.guarded owner stage run) := by
  refine h.congr (by rw [exec_guarded]) fun a ha => ⟨a, ?_⟩
  exact congrArg Prod.fst (exec_guarded_ok.mp (Prod.ext ha rfl))

theorem annotated {run : Run Unit} (path : List ℕ) (h : Logged stack stack' c run) :
    Logged stack stack' c (Wiring.annotated path run) := by
  refine h.congr (by rw [exec_annotated]) fun a ha => ?_
  rw [exec_annotated] at ha
  rcases hr : (run.exec c).1 with fault | u
  · rw [hr] at ha
    cases ha
  · exact ⟨u, rfl⟩

theorem forM {f : β → Run PUnit} {items : List β} (h : ∀ b c, Logged stack stack c (f b))
    (c : Container) : Logged stack stack c (items.forM f) := by
  induction items generalizing c with
  | nil => exact .pure _
  | cons b rest ih =>
    rw [forM_cons]
    exact (h b c).bind fun _ d _ => ih d

theorem ofScript {owner : String} {stage : Stage} {script : Script α}
    (h : ∃ log, Logs stack log stack c (script.exec c).2) :
    Logged stack stack c (Run.ofScript owner stage script) := by
  refine .of_logs ?_
  rw [exec_ofScript]
  exact h

/-- What is done with a bean that may be missing. -/
theorem withBean {i : ℕ} {use : Bean → Run Unit}
    (h : ∀ bean, c.bean? i = some bean → Logged stack stack c (use bean)) :
    Logged stack stack c (Wiring.withBean i use) := by
  unfold Wiring.withBean
  refine .get ?_
  rcases hb : c.bean? i with _ | bean
  · exact .pure ()
  · exact h bean hb

end Logged
end Run

/-! ### Wiring -/

/-- What asks a maker for beans notes what is allowed where the maker does. -/
def Agreement.logged {make : Wiring.Maker} {stack : List ℕ}
    (h : ∀ lazy i c, Run.Logged stack stack c (make lazy i)) : Agreement where
  injector := Wiring.injector make
  other := Wiring.injector make
  rel run _ := ∀ c, Run.Logged stack stack c run
  mild h c := .of_beside (h c).beside
  bind h hn c := (h c).bind fun a d _ => hn a d
  guarded owner stage h c := (h c).guarded owner stage
  request want next hn c := by
    refine .bind ?_ fun handles d _ => .of_beside (hn handles d).beside
    unfold Wiring.injector
    refine .get ?_
    rcases c.registry.select want.type want.tag with reason | positions
    · exact .throw _
    · exact (Run.Logged.forM (h want.lazy) c).bind fun _ d _ => .get (.pure _)

namespace Wiring

open Run (Logged)

variable {make : Maker} {stack : List ℕ} {c d : Container} {i : ℕ}

theorem logged_wireDependency (h : ∀ lazy i c, Logged stack stack c (make lazy i))
    (selector : Selector) (c : Container) :
    Logged stack stack c (wireDependency make selector) := by
  unfold wireDependency
  refine .get ?_
  generalize c.registry.find selector = positions
  cases positions with
  | nil => exact .throw _
  | cons j rest => exact .forM (h false) c

theorem logged_construct (h : ∀ lazy j c, Logged (stack ++ [i]) (stack ++ [i]) c (make lazy j))
    (bean : Bean) (c : Container) :
    Logged (stack ++ [i]) (stack ++ [i]) c (construct (injector make) i bean) := by
  unfold construct
  cases bean.source with
  | refused reason => exact .throw _
  | object made =>
    dsimp only
    split
    · exact .throw _
    · exact .modify (Container.logs_modifyBean c List.mem_concat_self _) (.pure made)
  | constructor callable arguments actions =>
    have hvalues := Agreement.agrees_parameters (Agreement.logged h).admits_none callable.params
      arguments c
    refine .guarded bean.id .construct (.bind hvalues fun values d _ => .ofScript ?_)
    have hbody := (beside_constructorBody bean.toDefinition callable actions values
      (d.note (.called .construct i 0))).logs (stack ++ [i])
    obtain ⟨log, hlog⟩ := hbody
    exact ⟨_, (Container.logs_called d .construct stack i 0).trans hlog⟩

theorem logged_wireFields (h : ∀ lazy j c, Logged stack stack c (make lazy j))
    (definition : Definition) (owner : String) (c : Container) :
    Logged stack stack c (definition.wireFields (injector make) owner) :=
  Agreement.agrees_fields (Agreement.logged h).admits_none owner definition c

theorem logged_keep (component : Component) (c : Container) :
    Logged (stack ++ [i]) (stack ++ [i]) c (keep i component) := by
  refine .withBean fun bean _ => ?_
  have hkept : ∀ d, Logged (stack ++ [i]) (stack ++ [i]) d (modify (·.modifyBean i fun bean =>
      { bean with component := some component })) :=
    fun d => .of_logs ⟨[], Container.logs_modifyBean d List.mem_concat_self _⟩
  split
  · exact (Logged.throw _).bind fun _ d _ => hkept d
  · exact hkept c

theorem logged_runInit (owner : String) (scene : Scene) (step : ℕ) (hooks : List (List Action))
    (c : Container) :
    Logged (stack ++ [i]) (stack ++ [i]) c (runInit i owner scene step hooks) := by
  induction hooks generalizing step c with
  | nil => exact .pure ()
  | cons hook rest ih =>
    refine .modify (Container.logs_called c .init stack i step) (.bind (.ofScript ?_) fun _ d _ => ?_)
    · exact (Action.beside_runAll scene hook _).logs _
    · exact ih (step + 1) d

/-- **The bean on top of the stack is made with calls of its own code**, and goes off the stack when
that comes to its end. -/
theorem logged_complete (h : ∀ lazy j c, Logged (stack ++ [i]) (stack ++ [i]) c (make lazy j))
    (bean : Bean) (c : Container) :
    Logged (stack ++ [i]) stack c (complete (injector make) i bean) := by
  have hi : i ∈ stack ++ [i] := List.mem_concat_self
  have hstatus := fun c status => Container.logs_modifyBean c hi
    fun bean : Bean => { bean with status }
  rw [complete_eq]
  refine .modify (hstatus c .creating) ((logged_construct h bean _).bind fun made d _ => ?_)
  refine .modify (hstatus d .created) ?_
  refine (logged_wireFields h bean.toDefinition bean.id _).bind fun fields e _ => ?_
  refine (logged_keep _ e).bind fun _ e' _ => .modify (hstatus e' .wired) ?_
  refine (logged_runInit bean.id _ 0 bean.init _).bind fun _ last _ => ?_
  exact .modify (hstatus last .initialized) (.of_logs ⟨_, Container.logs_finished _ stack i⟩)

theorem logged_build (h : ∀ lazy j c, Logged (stack ++ [i]) (stack ++ [i]) c (make lazy j))
    (hc : c.cancelled = false) : Logged stack stack c (build make i) := by
  refine .withBean fun bean hb => .modify (Container.logs_entered hc stack i) ?_
  have hdep : Logged (stack ++ [i]) (stack ++ [i]) (c.note (.entered i))
      (bean.dependsOn.forM (wireDependency make)) := .forM (logged_wireDependency h) _
  refine hdep.bind fun _ d hx => ?_
  -- no bean goes missing, so the one that was entered is still there
  obtain ⟨log, top, hlog, -⟩ := hdep
  rw [hx] at hlog
  have hlt : i < d.registry.beans.length := by
    rw [hlog.length]
    exact (List.getElem?_eq_some_iff.mp hb).1
  unfold Logged
  rw [Run.exec_withBean _ (List.getElem?_eq_getElem hlt)]
  exact logged_complete h _ d

/-- Whether a bean is made is found without a change, and it is only made while shutdown was not
requested. -/
theorem exec_mustMake (stack : List ℕ) (lazy : Bool) (i : ℕ) (c : Container) :
    ∃ result, (mustMake stack lazy i).exec c = (result, c) ∧
      ∀ make, result = .ok make → c.cancelled = false := by
  unfold mustMake
  rw [Run.exec_get_bind]
  cases c.cancelled with
  | true =>
    rw [if_pos rfl]
    exact ⟨_, rfl, nofun⟩
  | false =>
    rw [if_neg Bool.false_ne_true]
    refine ⟨_, Prod.ext rfl ?_, fun _ _ => rfl⟩
    dsimp only
    repeat' split
    all_goals rfl

theorem logged_mustMake {run : Run Unit} (lazy : Bool)
    (h : c.cancelled = false → Logged stack stack c run) :
    Logged stack stack c (mustMake stack lazy i >>= fun b => if b = true then run else pure ()) := by
  obtain ⟨result, hx, hresult⟩ := exec_mustMake stack lazy i c
  refine .bind (.of_beside ?_) fun make d hd => ?_
  · rw [hx]
    exact .refl c
  · rw [hx] at hd
    obtain ⟨rfl, rfl⟩ := Prod.mk.inj hd
    split
    · exact h (hresult make rfl)
    · exact .pure ()

/-- **Wiring notes what is allowed**, whatever the beans are and however it ends. -/
theorem logged_wire (room : ℕ) : ∀ (stack : List ℕ) (lazy : Bool) (i : ℕ) (c : Container),
    Logged stack stack c (wire room stack lazy i) := by
  induction room with
  | zero => exact fun stack lazy i c => logged_mustMake lazy fun _ => .get (.throw _)
  | succ room ih =>
    exact fun stack lazy i c => logged_mustMake lazy fun hc =>
      .annotated _ (logged_build (ih (stack ++ [i])) hc)

end Wiring

namespace Container

/-- **The log of the making of all beans is a run of the machine.** -/
theorem logged_wireBeans (c : Container) : Run.Logged [] [] c wireBeans := by
  refine .get (.forM (fun i c => .withBean fun bean _ => ?_) c)
  split
  · exact Wiring.logged_wire _ [] false i c
  · exact .pure ()

end Container
end BeanContainer
