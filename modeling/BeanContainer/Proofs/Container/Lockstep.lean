/-
# Probed wiring in step with plain wiring

Wiring that is probed goes in step with plain wiring: it gives the same, and where it fails it does
so with the same fault; only the failure may leave something behind in the container (`Wake`). All
that is asked of a container on the way is that the beans in it are decided as they were at the
start (`Container.Kept`), and that is kept by every step.

Key definitions: `Wake`, `Wake.InStep`, `Wake.Admits`.
Key theorems: `Wake.inStep_wire`, `Container.refresh_inStep`.
-/
import BeanContainer.Proofs.Container.Refresh

namespace BeanContainer

variable {α β : Type} {last : Registry} {store : Store} {c d : Container} {i : ℕ} {bean : Bean}

/-! ### Decided beans -/

namespace Container

/-- A change of a bean that searches don't see. -/
theorem Kept.modifyBean (h : c.Kept last store) (change : Bean → Bean)
    (hs : ∀ bean, c.bean? i = some bean → (change bean).standing = bean.standing) :
    (c.modifyBean i change).Kept last store := by
  refine ⟨h.store, h.phase, h.alike.trans (List.ext_getElem? fun k => ?_)⟩
  rw [List.getElem?_map, List.getElem?_map]
  change ((c.modifyBean i change).bean? k).map _ = (c.bean? k).map _
  rw [bean?_modifyBean]
  split
  · next hk =>
    subst hk
    rcases hb : c.bean? i with _ | bean
    · rfl
    · rw [Option.map_some, Option.map_some, Option.map_some, hs bean hb]
  · rfl

/-- The beans stay decided when one goes on that takes part. -/
theorem Kept.setStatus (h : c.Kept last store) {first : Bean} (hf : last.beans[i]? = some first)
    (hi : first.isInjectable = true) (status : Status) (hs : status ≠ .deleted ∧ status ≠ .default) :
    (c.modifyBean i fun bean => { bean with status }).Kept last store := by
  refine h.modifyBean _ fun bean hb => Wiring.standing_status bean ?_ hs bean.taken bean.component
  obtain ⟨first', hf', hst⟩ := h.alike.bean hb
  rw [hf] at hf'
  cases hf'
  obtain ⟨-, ha, hu⟩ := Bean.standing_eq hst
  unfold Bean.isInjectable at hi
  rw [← ha, ← hu] at hi
  simpa [Bean.isAlive, Bean.isUndecided] using hi

theorem Kept.note (h : c.Kept last store) (event : Event) : (c.note event).Kept last store :=
  ⟨h.store, h.phase, h.alike⟩

end Container

/-! ### Computations in step -/

/-- What a failure may leave behind: what may become of the container that it left. -/
structure Wake where
  late : Container → Container → Prop
  refl : ∀ c, late c c
  registry : ∀ {c d : Container}, late c d → d.registry = c.registry

namespace Wake

variable {wake : Wake}

/-- Two ends that are the same, up to what a failure leaves behind. The beans are decided as they
were. -/
inductive Ends (wake : Wake) (last : Registry) (store : Store) :
    Except Fault α × Container → Except Fault α × Container → Prop
  | done {a : α} {d : Container} : d.Kept last store → Ends wake last store (.ok a, d) (.ok a, d)
  | failed {fault : Fault} {d d' : Container} : wake.late d d' →
      Ends wake last store (.error fault, d) (.error fault, d')

/-- In `c` the other computation goes in step with the first one. -/
def InStep (wake : Wake) (last : Registry) (store : Store) (c : Container) (run other : Run α) :
    Prop :=
  wake.Ends last store (run.exec c) (other.exec c)

/-- The other computation goes in step wherever the beans are decided. -/
def Paired (wake : Wake) (last : Registry) (store : Store) (run other : Run α) : Prop :=
  ∀ c : Container, c.Kept last store → wake.InStep last store c run other

/-- A probe may be put around computations that are in step. -/
def Admits (wake : Wake) (last : Registry) (store : Store) (probe : Probe) : Prop :=
  ∀ {α : Type} {c : Container} {run other : Run α}, c.Kept last store →
    wake.InStep last store c run other → wake.InStep last store c run (probe.around other)

namespace InStep

variable {run other : Run α}

/-- What keeps the beans decided is in step with itself. -/
theorem refl (h : ∀ a d, run.exec c = (.ok a, d) → d.Kept last store) :
    wake.InStep last store c run run := by
  unfold InStep
  rcases hr : run.exec c with ⟨fault | a, d⟩
  · exact .failed (wake.refl d)
  · exact .done (h a d hr)

theorem of_aside (hc : c.Kept last store) (h : c.Aside (run.exec c).2) :
    wake.InStep last store c run run := by
  refine refl fun a d hx => ?_
  rw [hx] at h
  exact hc.aside h

theorem pure (hc : c.Kept last store) (a : α) :
    wake.InStep last store c (Pure.pure a : Run α) (Pure.pure a) :=
  .done hc

theorem throw (fault : Fault) :
    wake.InStep last store c (MonadExcept.throw fault : Run α) (MonadExcept.throw fault) :=
  .failed (wake.refl c)

theorem bind {next next' : α → Run β} (h : wake.InStep last store c run other)
    (hn : ∀ a d, run.exec c = (.ok a, d) → d.Kept last store →
      wake.InStep last store d (next a) (next' a)) :
    wake.InStep last store c (run >>= next) (other >>= next') := by
  unfold InStep at h
  generalize hr : run.exec c = first, ho : other.exec c = second at h
  unfold InStep
  cases h with
  | @done a d hd =>
    rw [Run.exec_bind_ok hr, Run.exec_bind_ok ho]
    exact hn a d hr hd
  | failed hl =>
    rw [Run.exec_bind_error hr, Run.exec_bind_error ho]
    exact .failed hl

/-- A change of faults alone, which is the same behind the failure. -/
theorem mapError {run' other' : Run α} {f : Container → Fault → Fault}
    (h : wake.InStep last store c run other) (hf : ∀ d d', wake.late d d' → f d' = f d)
    (hr : run'.exec c = ((run.exec c).1.mapError (f (run.exec c).2), (run.exec c).2))
    (ho : other'.exec c = ((other.exec c).1.mapError (f (other.exec c).2), (other.exec c).2)) :
    wake.InStep last store c run' other' := by
  unfold InStep at h ⊢
  rw [hr, ho]
  generalize run.exec c = first, other.exec c = second at h
  cases h with
  | done hd => exact .done hd
  | @failed fault d d' hl =>
    have hfault : f d' fault = f d fault := congrFun (hf d d' hl) fault
    show wake.Ends last store (.error (f d fault), d) (.error (f d' fault), d')
    rw [hfault]
    exact .failed hl

theorem guarded (owner : String) (stage : Stage) (h : wake.InStep last store c run other) :
    wake.InStep last store c (Run.guarded owner stage run) (Run.guarded owner stage other) :=
  h.mapError (f := fun _ => Fault.staged owner stage) (fun _ _ _ => rfl)
    (Run.exec_guarded owner stage run c) (Run.exec_guarded owner stage other c)

theorem get {next next' : Container → Run α} (h : wake.InStep last store c (next c) (next' c)) :
    wake.InStep last store c (MonadState.get >>= next) (MonadState.get >>= next') := h

theorem modify {f : Container → Container} {next next' : PUnit → Run α}
    (h : wake.InStep last store (f c) (next ⟨⟩) (next' ⟨⟩)) :
    wake.InStep last store c (modify f >>= next) (modify f >>= next') := h

theorem forM {f g : β → Run PUnit} (items : List β) (hc : c.Kept last store)
    (h : ∀ b ∈ items, wake.Paired last store (f b) (g b)) :
    wake.InStep last store c (items.forM f) (items.forM g) := by
  induction items generalizing c with
  | nil => exact .pure hc _
  | cons b rest ih =>
    rw [Run.forM_cons, Run.forM_cons]
    refine (h b List.mem_cons_self c hc).bind fun _ d _ hd => ?_
    exact ih hd fun b' hm => h b' (List.mem_cons_of_mem b hm)

end InStep

/-- Computations in step that ask injectors whose answers are. -/
def agreement (wake : Wake) {inject inject' : Injector}
    (h : ∀ type tag lazy, wake.Paired last store (inject type tag lazy) (inject' type tag lazy)) :
    Agreement where
  injector := inject
  other := inject'
  rel := wake.Paired last store
  mild hm c hc := .of_aside hc (hm c).aside
  bind hr hn c hc := (hr c hc).bind fun a d _ hd => hn a d hd
  guarded owner stage hr c hc := (hr c hc).guarded owner stage
  request want _ hm c hc := (h want.type want.tag want.lazy c hc).bind fun handles d _ hd =>
    .of_aside hd (hm handles d).aside

/-! ### The making of beans -/

section

open Wiring

variable {make other : Maker} {inject inject' : Injector} {probe : Probe}

theorem inStep_withBean {use use' : Bean → Run Unit} (hc : c.Kept last store)
    (h : ∀ bean, c.bean? i = some bean → wake.InStep last store c (use bean) (use' bean)) :
    wake.InStep last store c (withBean i use) (withBean i use') := by
  unfold withBean
  refine .get ?_
  rcases hb : c.bean? i with _ | bean
  · exact .pure hc _
  · exact h bean hb

theorem inStep_annotated (stack : List ℕ) {run run' : Run Unit}
    (h : wake.InStep last store c run run') :
    wake.InStep last store c (annotated stack run) (annotated stack run') := by
  refine h.mapError (f := (annotate · stack)) (fun d d' hl => ?_) (Run.exec_annotated stack run c)
    (Run.exec_annotated stack run' c)
  funext fault
  cases fault <;> simp only [annotate, wake.registry hl]

theorem paired_dependency (h : ∀ lazy j, wake.Paired last store (make lazy j) (other lazy j))
    (selector : Selector) :
    wake.Paired last store (wireDependency make selector) (wireDependency other selector) := by
  intro c hc
  unfold wireDependency
  refine .get ?_
  cases c.registry.find selector with
  | nil => exact .throw _
  | cons j rest => exact .forM _ hc fun j _ => h false j

theorem paired_injector (h : ∀ lazy j, wake.Paired last store (make lazy j) (other lazy j))
    (type : TypeName) (tag : AutowireTag) (lazy : Bool) :
    wake.Paired last store (injector make type tag lazy) (injector other type tag lazy) := by
  intro c hc
  unfold injector
  refine .get ?_
  rcases c.registry.select type tag with reason | positions
  · exact .throw _
  · exact (InStep.forM _ hc fun j _ => h lazy j).bind fun _ d _ hd => .get (.pure hd _)

/-- The beans stay decided when the source of a bean was used. -/
theorem inStep_construct (hp : wake.Admits last store probe)
    (h : ∀ type tag lazy, wake.Paired last store (inject type tag lazy) (inject' type tag lazy))
    (hc : c.Kept last store) :
    wake.InStep last store c (construct inject i bean) (probedConstruct probe inject' i bean) := by
  unfold probedConstruct construct
  cases bean.source with
  | refused reason => exact .throw _
  | object made =>
    dsimp only
    by_cases ht : bean.taken = true
    · rw [if_pos ht]
      exact .throw _
    · rw [if_neg ht]
      have hc1 := hc.modifyBean (i := i) (fun bean => { bean with taken := true }) fun _ _ => rfl
      exact .modify (.pure hc1 made)
  | constructor callable arguments actions =>
    have hvalues := Agreement.agrees_parameters (m := wake.agreement h)
      (fun hr c hc => hp hc (hr c hc)) callable.params arguments c hc
    refine (hvalues.bind fun values d _ hd => .refl fun value e hx => ?_).guarded bean.id .construct
    rw [Run.exec_ofScript] at hx
    obtain ⟨-, rfl⟩ := Prod.mk.inj hx
    exact (hd.note (.called .construct i 0)).aside
      (aside_constructorBody bean.toDefinition callable actions values _)

/-- Init hooks go in step. -/
theorem inStep_init (hp : wake.Admits last store probe) (owner : String) (scene : Scene)
    (step : ℕ) (hooks : List (List Action)) (hc : c.Kept last store) :
    wake.InStep last store c (runInit i owner scene step hooks)
      (probedInit probe i owner scene step hooks) := by
  induction hooks generalizing step c with
  | nil => exact .pure hc _
  | cons hook rest ih =>
    have hn := hc.note (.called .init i step)
    unfold runInit probedInit
    refine .modify ((hp hn (.of_aside hn ?_)).bind fun _ d _ hd => ih (step + 1) hd)
    unfold runHook
    rw [Run.exec_ofScript]
    exact Action.aside_runAll scene hook _

theorem inStep_keep (hc : c.Kept last store) (component : Component) :
    wake.InStep last store c (keep i component) (keep i component) := by
  unfold keep
  refine inStep_withBean hc fun bean _ => ?_
  by_cases hcomponent : bean.component.isSome = true
  · simp only [if_pos hcomponent]
    exact .throw _
  · simp only [if_neg hcomponent]
    have hc1 := hc.modifyBean (i := i) (fun bean => { bean with component := some component })
      fun _ _ => rfl
    exact .done hc1

theorem inStep_complete (hp : wake.Admits last store probe)
    (h : ∀ type tag lazy, wake.Paired last store (inject type tag lazy) (inject' type tag lazy))
    {first : Bean} (hf : last.beans[i]? = some first) (hi : first.isInjectable = true)
    (hc : c.Kept last store) :
    wake.InStep last store c (complete inject i bean) (probedComplete probe inject' i bean) := by
  unfold complete probedComplete
  have hc1 := hc.setStatus hf hi .creating (by decide)
  refine .modify ((hp hc1 (inStep_construct hp h hc1)).bind fun made c2 _ hc2 => ?_)
  have hc3 := hc2.setStatus hf hi .created (by decide)
  have hfields := Agreement.agrees_fields (m := wake.agreement h) (fun hr c hc => hp hc (hr c hc))
    bean.id bean.toDefinition _ hc3
  refine .modify (hfields.bind fun fields c4 _ hc4 => ?_)
  refine (inStep_keep hc4 _).bind fun _ c5 _ hc5 => ?_
  have hc6 := hc5.setStatus hf hi .wired (by decide)
  refine .modify ((inStep_init hp _ _ _ _ hc6).bind fun _ c7 _ hc7 => ?_)
  have hc8 := hc7.setStatus hf hi .initialized (by decide)
  exact .modify (.done ⟨hc8.store, hc8.phase, hc8.alike⟩)

theorem inStep_build (hp : wake.Admits last store probe)
    (h : ∀ lazy j, wake.Paired last store (make lazy j) (other lazy j))
    {first : Bean} (hf : last.beans[i]? = some first) (hi : first.isInjectable = true)
    (hc : c.Kept last store) :
    wake.InStep last store c (build make i) (probedBuild probe other i) := by
  have hinject : ∀ type tag lazy, wake.Paired last store (injector make type tag lazy)
      (probe.injector (injector other) type tag lazy) :=
    fun type tag lazy c hc => hp hc (paired_injector h type tag lazy c hc)
  unfold build probedBuild
  refine inStep_withBean hc fun bean _ => .modify ?_
  have hdependencies := InStep.forM bean.dependsOn (hc.note (.entered i))
    fun selector _ c hc => hp hc (paired_dependency h selector c hc)
  refine hdependencies.bind fun _ d _ hd => ?_
  exact inStep_withBean hd fun bean _ => inStep_complete hp hinject hf hi hd

/-- Whether a bean is made is decided without a change; one that is made takes part. -/
theorem mustMake_kept {stack : List ℕ} {lazy : Bool} (hc : c.Kept last store) {b : Bool}
    (hx : (mustMake stack lazy i).exec c = (.ok b, d)) :
    d = c ∧ (b = true → ∃ first, last.beans[i]? = some first ∧ first.isInjectable = true) := by
  unfold mustMake at hx
  rw [Run.exec_get_bind] at hx
  by_cases hcancelled : c.cancelled = true
  · rw [if_pos hcancelled] at hx
    cases hx
  rw [if_neg hcancelled] at hx
  rcases hb : c.bean? i with _ | bean <;> rw [hb] at hx
  · cases hx
    exact ⟨rfl, nofun⟩
  cases hst : bean.status <;> simp only [hst] at hx
  case resolved =>
    split at hx
    · cases hx
    cases hx
    obtain ⟨first, hf, hstanding⟩ := hc.alike.bean hb
    obtain ⟨-, ha, hu⟩ := Bean.standing_eq hstanding
    refine ⟨rfl, fun _ => ⟨first, hf, ?_⟩⟩
    unfold Bean.isInjectable
    rw [← ha, ← hu]
    simp [Bean.isAlive, Bean.isUndecided, hst]
  case creating | created =>
    split at hx <;> cases hx
    exact ⟨rfl, nofun⟩
  case wired | initialized =>
    cases hx
    exact ⟨rfl, nofun⟩
  case deleted | default => cases hx

/-- **Probed wiring goes in step with wiring.** -/
theorem paired_wire (hp : wake.Admits last store probe) (room : ℕ) :
    ∀ (stack : List ℕ) (lazy : Bool) (i : ℕ),
      wake.Paired last store (wire room stack lazy i) (probed probe room stack lazy i) := by
  induction room with
  | zero =>
    intro stack lazy i c hc
    unfold wire probed
    refine hp hc (.refl fun _ d hx => ?_)
    obtain ⟨b, c1, hmust, hx⟩ := Run.bind_ok_inv hx
    obtain ⟨rfl, -⟩ := mustMake_kept hc hmust
    cases b with
    | true => cases hx
    | false =>
      cases hx
      exact hc
  | succ room ih =>
    intro stack lazy i c hc
    have hmust : wake.InStep last store c (mustMake stack lazy i) (mustMake stack lazy i) :=
      .refl fun _ d hx => (mustMake_kept hc hx).1 ▸ hc
    unfold wire probed
    refine hp hc (hmust.bind fun b d hx hd => ?_)
    cases b with
    | false => exact .pure hd ()
    | true =>
      obtain ⟨first, hf, hi⟩ := (mustMake_kept hc hx).2 rfl
      exact inStep_annotated _ (inStep_build hp (ih (stack ++ [i])) hf hi hd)

/-- All beans are made in step. -/
theorem paired_beans (hp : wake.Admits last store probe) :
    wake.Paired last store Container.wireBeans (Container.probedBeans probe) := by
  have hroot : ∀ room j, wake.Paired last store (wireRoot room j) (probedRoot probe room j) := by
    intro room j c hc
    unfold wireRoot probedRoot
    refine inStep_withBean hc fun bean _ => ?_
    split
    · exact paired_wire hp room [] false j c hc
    · exact .pure hc ()
  intro c hc
  unfold Container.wireBeans Container.probedBeans
  exact .get (.forM _ hc fun j _ => hroot _ j)

end

end Wake

/-- **A probed start goes in step with the start.** At the end of a start that succeeds the beans are
decided as they were. -/
theorem Container.refresh_inStep {wake : Wake} {probe : Probe}
    (hp : wake.Admits last c.store probe) (hr : c.registry.resolve c.store = .ok last) :
    (∀ d, refresh.exec c = (.ok (), d) → (probedRefresh probe).exec c = (.ok (), d) ∧
      d.store = c.store ∧ last.Alike d.registry) ∧
    ∀ fault d, refresh.exec c = (.error fault, d) →
      ∃ d', wake.late d d' ∧ (probedRefresh probe).exec c = (.error fault, d') := by
  have hstart : (probedRefresh probe).exec c = _ := exec_startWith (probedBeans probe) c
  have hbeans := Wake.paired_beans hp { c with phase := .refreshing, registry := last }
    ⟨rfl, rfl, .refl last⟩
  unfold Wake.InStep at hbeans
  rw [hstart, exec_refresh, hr]
  dsimp only
  generalize wireBeans.exec { c with phase := .refreshing, registry := last } = plain,
    (probedBeans probe).exec { c with phase := .refreshing, registry := last } = probed at hbeans
  cases hbeans with
  | done hd =>
    refine ⟨fun d hx => ?_, nofun⟩
    cases hx
    exact ⟨rfl, hd.store, hd.alike⟩
  | failed hl =>
    refine ⟨nofun, fun fault d hx => ?_⟩
    cases hx
    exact ⟨_, hl, rfl⟩

end BeanContainer
