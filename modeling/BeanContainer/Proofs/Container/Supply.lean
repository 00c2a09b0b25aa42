/-
# Computations that ask for beans

A computation that asks an injector for beans comes to its end when its demand is met and the
injector gives them; then the beans are there that it was to get at once, and the late ones are at
least under construction. Where its demand is not met, it fails with a fault of its own.
`Supply.Meets` says so, and has one lemma for each way in which such computations are put together.
About the injector it takes for granted what `Supply` holds: between requests some invariant of the
container holds, and each request is served.

Key definitions: `Container.Aside`, `Container.Beside`, `Container.Kept`, `Container.Served`,
`Supply`, `Supply.Ends`, `Supply.Meets`.
Key theorems: `Supply.Meets.bind`, `Supply.Meets.beans`, `Supply.Meets.called`.
-/
import BeanContainer.Proofs.Container.Demand
import BeanContainer.Proofs.Fault
import Mathlib.Logic.Relation

namespace BeanContainer

open Relation (ReflTransGen)

/-- The event is a step in the making of a bean: it begins or ends, or code of the bean is called. -/
def Event.isStep : Event → Bool
  | entered _ | called .. | initialized _ => true
  | _ => false

/-- The demand has a request for the bean at `i`. -/
def Registry.Asks (registry : Registry) (demand : Demand) (lazy : Bool) (i : ℕ) : Prop :=
  ∃ want ∈ demand.wants, want.lazy = lazy ∧ i ∈ registry.picks want

theorem Registry.asks_and {registry : Registry} {first second : Demand} {lazy : Bool} {i : ℕ} :
    registry.Asks (first.and second) lazy i ↔
      registry.Asks first lazy i ∨ registry.Asks second lazy i := by
  unfold Asks Demand.and
  simp only [List.mem_append, or_and_right, exists_or]

theorem Registry.not_asks_given {registry : Registry} {p : Prop} {lazy : Bool} {i : ℕ} :
    ¬ registry.Asks (.given p) lazy i :=
  fun ⟨_, hw, _⟩ => nomatch hw

namespace Container

/-- What code does on the side: it notes events that are no steps in the making of beans, and may
request shutdown. -/
structure Aside (c d : Container) : Prop where
  same : d = { c with cancelled := d.cancelled, events := d.events }
  cancelled : c.cancelled = true → d.cancelled = true
  events : ∃ quiet, d.events = c.events ++ quiet ∧ ∀ event ∈ quiet, event.isStep = false

theorem Aside.refl (c : Container) : c.Aside c :=
  ⟨rfl, id, [], by simp, by simp⟩

theorem Aside.trans {c d e : Container} (h : c.Aside d) (h' : d.Aside e) : c.Aside e := by
  obtain ⟨quiet, hq, hc⟩ := h.events
  obtain ⟨quiet', hq', hc'⟩ := h'.events
  refine ⟨?_, fun hx => h'.cancelled (h.cancelled hx), quiet ++ quiet', ?_, ?_⟩
  · rw [h'.same, h.same]
  · rw [hq', hq, List.append_assoc]
  · intro event he
    rcases List.mem_append.mp he with he | he
    · exact hc event he
    · exact hc' event he

theorem Aside.registry {c d : Container} (h : c.Aside d) : d.registry = c.registry := by
  rw [h.same]

theorem Aside.store {c d : Container} (h : c.Aside d) : d.store = c.store := by
  rw [h.same]

theorem Aside.phase {c d : Container} (h : c.Aside d) : d.phase = c.phase := by
  rw [h.same]

theorem Aside.bean? {c d : Container} (h : c.Aside d) (i : ℕ) : d.bean? i = c.bean? i := by
  unfold Container.bean?
  rw [h.registry]

theorem aside_note (c : Container) {event : Event} (h : event.isStep = false) :
    c.Aside (c.note event) :=
  ⟨rfl, id, [event], rfl, by simpa using h⟩

theorem aside_requestShutdown (c : Container) : c.Aside c.requestShutdown :=
  ⟨rfl, fun _ => rfl, [.shutdown], rfl, by simp [Event.isStep]⟩

/-- What code does on the side, where the flag tells of the requests that are noted: it is set when
it was before, or shutdown was requested. -/
structure Beside (c d : Container) : Prop where
  same : d = { c with cancelled := d.cancelled, events := d.events }
  events : ∃ quiet, d.events = c.events ++ quiet ∧ (∀ event ∈ quiet, event.isStep = false) ∧
    (d.cancelled = true ↔ c.cancelled = true ∨ .shutdown ∈ quiet)

theorem Beside.aside {c d : Container} (h : c.Beside d) : c.Aside d := by
  obtain ⟨quiet, hq, hc, hflag⟩ := h.events
  exact ⟨h.same, fun hx => hflag.mpr (.inl hx), quiet, hq, hc⟩

theorem Beside.refl (c : Container) : c.Beside c :=
  ⟨rfl, [], by simp, by simp, by simp⟩

theorem Beside.trans {c d e : Container} (h : c.Beside d) (h' : d.Beside e) : c.Beside e := by
  obtain ⟨quiet, hq, hc, hflag⟩ := h.events
  obtain ⟨quiet', hq', hc', hflag'⟩ := h'.events
  refine ⟨(h.aside.trans h'.aside).same, quiet ++ quiet', ?_, ?_, ?_⟩
  · rw [hq', hq, List.append_assoc]
  · exact fun event he => (List.mem_append.mp he).elim (hc event) (hc' event)
  · rw [hflag', hflag, List.mem_append, or_assoc]

theorem beside_note (c : Container) {event : Event} (h : event.isStep = false)
    (hs : event ≠ .shutdown) : c.Beside (c.note event) := by
  refine ⟨rfl, [event], rfl, by simpa using h, ?_⟩
  rw [List.mem_singleton]
  exact ⟨.inl, fun hx => hx.resolve_right (Ne.symm hs)⟩

theorem beside_requestShutdown (c : Container) : c.Beside c.requestShutdown :=
  ⟨rfl, [.shutdown], rfl, by simp [Event.isStep], by simp [requestShutdown]⟩

theorem component?_of_bean {c : Container} {i : ℕ} {bean : Bean} (hb : c.bean? i = some bean) :
    c.component? i = bean.component := by
  unfold component?
  rw [hb, Option.bind_some]

theorem component?_congr {c d : Container} {i : ℕ} (h : d.bean? i = c.bean? i) :
    d.component? i = c.component? i := by
  unfold component?
  rw [h]

/-- The bean at a position is there. -/
def Present (c : Container) (i : ℕ) : Prop := (c.component? i).isSome = true

theorem present_iff_of_bean {c : Container} {i : ℕ} {bean : Bean} (hb : c.bean? i = some bean) :
    c.Present i ↔ bean.component.isSome = true := by
  unfold Present
  rw [component?_of_bean hb]

theorem Present.exists_bean {c : Container} {i : ℕ} (h : c.Present i) :
    ∃ bean, c.bean? i = some bean ∧ bean.component.isSome = true := by
  obtain ⟨component, hc⟩ := Option.isSome_iff_exists.mp h
  obtain ⟨bean, hb, -⟩ := Option.bind_eq_some_iff.mp hc
  exact ⟨bean, hb, (present_iff_of_bean hb).mp h⟩

theorem Aside.present {c d : Container} (h : c.Aside d) {i : ℕ} (hp : c.Present i) :
    d.Present i := by
  unfold Present at hp ⊢
  rwa [component?_congr (h.bean? i)]

/-- The bean at a position is there; for a late reference it may be on the stack instead. -/
def Granted (c : Container) (stack : List ℕ) (lazy : Bool) (i : ℕ) : Prop :=
  c.Present i ∨ lazy = true ∧ i ∈ stack

theorem Granted.present {c : Container} {stack : List ℕ} {i : ℕ} (h : c.Granted stack false i) :
    c.Present i :=
  h.resolve_right nofun

/-- From `c` to `d` the beans were granted that are asked for, and no other ones were initialized
than those that they lead to. -/
structure Served (last : Registry) (store : Store) (stack : List ℕ) (asked : Bool → ℕ → Prop)
    (c d : Container) : Prop where
  keeps : ∀ lazy i, c.Granted stack lazy i → d.Granted stack lazy i
  grants : ∀ lazy i, asked lazy i → d.Granted stack lazy i
  only : ∀ k ∈ d.order, k ∈ c.order ∨
    ∃ lazy i, asked lazy i ∧ ReflTransGen (last.Edge store) i k

section

variable {last : Registry} {store : Store} {stack : List ℕ} {asked first second : Bool → ℕ → Prop}
  {c d e : Container}

theorem Aside.served (h : c.Aside d) (hn : ∀ lazy i, ¬ asked lazy i) :
    Served last store stack asked c d where
  keeps _ _ := Or.imp_left h.present
  grants lazy i ha := absurd ha (hn lazy i)
  only k hk := by
    rw [h.same] at hk
    exact .inl hk

theorem Served.trans (h : Served last store stack first c d)
    (h' : Served last store stack second d e)
    (ha : ∀ lazy i, asked lazy i ↔ first lazy i ∨ second lazy i) :
    Served last store stack asked c e where
  keeps lazy i hg := h'.keeps lazy i (h.keeps lazy i hg)
  grants lazy i hg := by
    rcases (ha lazy i).mp hg with hg | hg
    · exact h'.keeps lazy i (h.grants lazy i hg)
    · exact h'.grants lazy i hg
  only k hk := by
    rcases h'.only k hk with hk | ⟨lazy, i, hi, hr⟩
    · rcases h.only k hk with hk | ⟨lazy, i, hi, hr⟩
      · exact .inl hk
      · exact .inr ⟨lazy, i, (ha lazy i).mpr (.inl hi), hr⟩
    · exact .inr ⟨lazy, i, (ha lazy i).mpr (.inr hi), hr⟩

theorem Served.congr (h : Served last store stack first c d)
    (ha : ∀ lazy i, asked lazy i ↔ first lazy i) : Served last store stack asked c d := by
  have he : asked = first := funext fun lazy => funext fun i => propext (ha lazy i)
  exact he ▸ h

end

/-- The container makes the decided beans of `last`, with these properties. -/
structure Kept (last : Registry) (store : Store) (c : Container) : Prop where
  store : c.store = store
  phase : c.phase = .refreshing
  alike : last.Alike c.registry

theorem Kept.aside {last : Registry} {store : Store} {c d : Container} (h : c.Kept last store)
    (ha : c.Aside d) : d.Kept last store := by
  refine ⟨?_, ?_, ?_⟩
  · rw [ha.store]
    exact h.store
  · rw [ha.phase]
    exact h.phase
  · rw [ha.registry]
    exact h.alike

theorem Kept.holds {last : Registry} {store : Store} {c : Container} (h : c.Kept last store) :
    c.registry.holds c.store = (last.outlook store).holds := by
  rw [h.store, h.alike.holds]
  rfl

end Container

/-- An injector with the invariant of the containers that it is asked in. -/
structure Supply (last : Registry) (store : Store) where
  injector : Injector
  /-- The beans under construction. -/
  stack : List ℕ
  holds : Container → Prop
  kept : ∀ {c}, holds c → c.Kept last store
  aside : ∀ {c d : Container}, holds c → c.Aside d → holds d
  /-- When it answers, the beans are granted that were asked for. -/
  gives : ∀ {want : Want} {c d handles}, holds c →
    (injector want.type want.tag want.lazy).exec c = (.ok handles, d) →
      holds d ∧ ∃ positions, last.select want.type want.tag = .ok positions ∧
        handles = last.handles want.type positions ∧
        c.Served last store stack (fun lazy i => lazy = want.lazy ∧ i ∈ positions) d
  /-- It refuses a tag that does not pick any way. -/
  refuses : ∀ {want : Want} {c reason}, holds c →
    last.select want.type want.tag = .error reason →
      (injector want.type want.tag want.lazy).exec c = (.error (.lookup reason), c)

namespace Supply

variable {last : Registry} {store : Store} {s : Supply last store} {α β : Type}
  {demand first second : Demand}

/-- The end of a computation with this demand that began in `c`: it succeeds, and its requests were
served; or its demand is not met, and it fails by itself; or beans were refused that it asked for. -/
inductive Ends (s : Supply last store) (demand : Demand) (c : Container) :
    Except Fault α × Container → Prop
  | done {a : α} {d : Container} : s.holds d →
      c.Served last store s.stack (last.Asks demand) d → Ends s demand c (.ok a, d)
  | unmet {fault : Fault} {d : Container} : ¬ demand.met → fault.isLocal = true → s.holds d →
      Ends s demand c (.error fault, d)
  | refused {fault cause : Fault} {d middle : Container} {want : Want} {positions : List ℕ} :
      want ∈ demand.wants → s.holds middle → last.select want.type want.tag = .ok positions →
      (s.injector want.type want.tag want.lazy).exec middle = (.error cause, d) →
      (fault = cause ∨ ∃ reason, cause = .panic reason) → Ends s demand c (.error fault, d)

/-- The computation ends as its demand says. -/
def Meets (s : Supply last store) (demand : Demand) (run : Run α) : Prop :=
  ∀ c, s.holds c → s.Ends demand c (run.exec c)

theorem Ends.nothing {a : α} {c : Container} (hc : s.holds c) :
    s.Ends .nothing c ((.ok a, c) : Except Fault α × Container) :=
  .done hc ((Container.Aside.refl c).served fun _ _ => Registry.not_asks_given)

theorem Meets.pure (a : α) : s.Meets .nothing (Pure.pure a : Run α) :=
  fun _ hc => .nothing hc

/-- A computation that fails has a demand that is not met. -/
theorem Meets.throw {fault : Fault} (h : ¬ demand.met) (hl : fault.isLocal = true) :
    s.Meets demand (MonadExcept.throw fault : Run α) :=
  fun _ hc => .unmet h hl hc

/-- What asks for no bean. -/
theorem Meets.of_exec {run : Run α} {p : Prop}
    (h : ∀ c, s.holds c → c.Aside (run.exec c).2 ∧ Local (run.exec c).1 ∧
      (p → ∃ a, (run.exec c).1 = .ok a)) : s.Meets (.given p) run := by
  intro c hc
  obtain ⟨ha, hl, hp⟩ := h c hc
  rcases hr : run.exec c with ⟨fault | a, d⟩ <;> rw [hr] at ha hl hp
  · refine .unmet (fun hm => ?_) hl (s.aside hc ha)
    obtain ⟨a, he⟩ := hp hm
    cases he
  · exact .done (s.aside hc ha) (ha.served fun _ _ => Registry.not_asks_given)

theorem Meets.ofExcept {result : Except Fault α} (hl : Local result) :
    s.Meets (.given (∃ a, result = .ok a)) (Run.ofExcept result) := by
  refine .of_exec fun c _ => ?_
  rw [Run.exec_ofExcept]
  exact ⟨.refl c, hl, id⟩

theorem Meets.get {next : Container → Run α}
    (h : ∀ c, c.Kept last store → s.Meets demand (next c)) :
    s.Meets demand (MonadState.get >>= next) :=
  fun c hc => h c (s.kept hc) c hc

/-- One computation after the other: their demands are added up. -/
theorem Ends.bind {run : Run α} {next : α → Run β} {c : Container}
    (h : s.Ends first c (run.exec c))
    (h' : ∀ a d, run.exec c = (.ok a, d) → s.holds d → s.Ends second d ((next a).exec d)) :
    s.Ends (first.and second) c ((run >>= next).exec c) := by
  generalize he : run.exec c = result at h
  cases h with
  | unmet hm hl hd =>
    rw [Run.exec_bind_error he]
    exact .unmet (fun hb => hm hb.1) hl hd
  | refused hw hh hs hx hf =>
    rw [Run.exec_bind_error he]
    exact .refused (List.mem_append_left _ hw) hh hs hx hf
  | @done a d hd hp =>
    rw [Run.exec_bind_ok he]
    have hn := h' a d he hd
    generalize (next a).exec d = result at hn
    cases hn with
    | unmet hm hl hd => exact .unmet (fun hb => hm hb.2) hl hd
    | refused hw hh hs hx hf => exact .refused (List.mem_append_right _ hw) hh hs hx hf
    | done hd' hp' => exact .done hd' (hp.trans hp' fun _ _ => Registry.asks_and)

/-- A demand may be replaced by one with the same requests that is met more rarely. -/
theorem Ends.imp (first : Demand) {c : Container} {result : Except Fault α × Container}
    (h : s.Ends first c result) (hw : first.wants = second.wants)
    (hm : second.met → first.met) : s.Ends second c result := by
  cases h with
  | unmet hn hl hd => exact .unmet (fun hs => hn (hm hs)) hl hd
  | refused hx hh hs he hf => exact .refused (hw ▸ hx) hh hs he hf
  | done hd hp =>
    refine .done hd (hp.congr fun lazy i => ?_)
    unfold Registry.Asks
    rw [hw]

theorem Meets.bind {run : Run α} {next : α → Run β} (h : s.Meets first run)
    (h' : ∀ a, s.Meets second (next a)) : s.Meets (first.and second) (run >>= next) :=
  fun c hc => (h c hc).bind fun a d _ hd => h' a d hd

theorem Meets.imp {run : Run α} (h : s.Meets first run) (hw : first.wants = second.wants)
    (hm : second.met → first.met) : s.Meets second run :=
  fun c hc => (h c hc).imp first hw hm

theorem Meets.map {run : Run α} (f : α → β) (h : s.Meets demand run) :
    s.Meets demand (f <$> run) := by
  intro c hc
  have hr := h c hc
  rw [Run.exec_map]
  generalize run.exec c = result at hr
  cases hr with
  | unmet hn hl hd => exact .unmet hn hl hd
  | refused hx hh hs he hf => exact .refused hx hh hs he hf
  | done hd hp => exact .done hd hp

/-- What follows a computation and does nothing does not add to its demand. -/
theorem Meets.bind_pure {run : Run α} (f : α → β) (h : s.Meets demand run) :
    s.Meets demand (run >>= fun a => Pure.pure (f a)) := by
  rw [bind_pure_comp]
  exact h.map f

/-- A call takes the panics of a computation for its own failures. -/
theorem Meets.called {run : Run α} (owner : String) (h : s.Meets demand run) :
    s.Meets demand (Run.guarded owner .call run) := by
  intro c hc
  have hr := h c hc
  rw [Run.exec_guarded]
  generalize run.exec c = result at hr
  cases hr with
  | done hd hp => exact .done hd hp
  | @unmet fault _ hn hl hd =>
    refine .unmet hn ?_ hd
    cases fault with
    | panic reason => rfl
    | _ => exact hl
  | @refused fault cause _ _ _ _ hx hh hs he hf =>
    refine .refused hx hh hs he ?_
    rcases hf with rfl | hf
    · cases fault with
      | panic reason => exact .inr ⟨reason, rfl⟩
      | _ => exact .inl rfl
    · exact .inr hf

/-! ### Requests -/

/-- Beans that are wanted at once are there when the request is answered. -/
theorem present_of_gives (s : Supply last store) {want : Want} {c d : Container}
    {handles : List Handle} (hc : s.holds c)
    (hx : (s.injector want.type want.tag want.lazy).exec c = (.ok handles, d))
    (hl : want.lazy = false) : ∀ handle ∈ handles, d.Present handle.bean := by
  intro handle hm
  obtain ⟨-, positions, hs, he, hp⟩ := s.gives hc hx
  have hb : handles.map (·.bean) = positions := by
    rw [he]
    exact Registry.handles_bean (Registry.select_subset hs)
  exact (hp.grants false handle.bean ⟨hl.symm, hb ▸ List.mem_map_of_mem hm⟩).present

/-- A request, with what is done about its answer: that succeeds unless the number of beans is not
accepted. -/
theorem Meets.beans (want : Want) {next : List Handle → Run α} {accepts : ℕ → Prop}
    (h : ∀ handles d, s.holds d →
      (want.lazy = false → ∀ handle ∈ handles, d.Present handle.bean) →
        (∃ a, (next handles).exec d = (.ok a, d)) ∨
        (∃ fault, (next handles).exec d = (.error fault, d) ∧ fault.isLocal = true) ∧
          ¬ accepts handles.length) :
    s.Meets (.beans (last.outlook store) want accepts)
      (s.injector want.type want.tag want.lazy >>= next) := by
  intro c hc
  have hcount : (last.outlook store).count want.type want.tag =
      (last.select want.type want.tag).toOption.map List.length := rfl
  rcases hx : (s.injector want.type want.tag want.lazy).exec c with ⟨cause | handles, d⟩
  · rw [Run.exec_bind_error hx]
    rcases hs : last.select want.type want.tag with reason | positions
    · rw [s.refuses hc hs] at hx
      cases hx
      refine .unmet ?_ rfl hc
      rintro ⟨n, hn, -⟩
      rw [hcount, hs] at hn
      cases hn
    · exact .refused (List.mem_singleton_self want) hc hs hx (.inl rfl)
  · rw [Run.exec_bind_ok hx]
    obtain ⟨hd, positions, hs, he, hp⟩ := s.gives hc hx
    have hb : handles.map (·.bean) = positions := by
      rw [he]
      exact Registry.handles_bean (Registry.select_subset hs)
    rcases h handles d hd (s.present_of_gives hc hx) with ⟨a, ha⟩ | ⟨⟨fault, hf, hl⟩, hn⟩
    · rw [ha]
      have hpicks : last.picks want = positions := by
        unfold Registry.picks
        rw [hs]
        rfl
      refine .done hd (hp.congr fun lazy i => ?_)
      unfold Registry.Asks Demand.beans
      rw [eq_comm (a := lazy)]
      simp only [List.mem_singleton, exists_eq_left, hpicks]
    · rw [hf]
      refine .unmet ?_ hl hd
      rintro ⟨n, hc, ha⟩
      rw [hcount, hs] at hc
      cases hc
      rw [← hb, List.length_map] at ha
      exact hn ha

end Supply
end BeanContainer
