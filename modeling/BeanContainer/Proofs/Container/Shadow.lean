/-
# Beans made by other means

The making of beans may be done by another maker, and injection points may be filled by another
injector: if these do what the real ones do, then so does all that is built on them, up to the
refresh (`Wiring.Shadows`, `Wiring.Serves`). Makers that look at more than the real one are compared
with it in this way. On the way the course of the container is followed, and no fault is internal.

Key definitions: `Wiring.buildWith`, `Wiring.Shadows`, `Wiring.Serves`, `Container.beansWith`.
Key theorems: `Wiring.serves_injector`, `Wiring.twins_build`, `Wiring.twins_wire`,
`Wiring.shadows_wire`, `Container.twins_beans`, `Container.refresh_course`.
-/
import BeanContainer.Proofs.Container.Cycle
import BeanContainer.Proofs.Container.Reference

namespace BeanContainer

variable {last : Registry} {store : Store} {terms : Terms last} {stack : List ℕ} {c d : Container}
  {i : ℕ} {bean : Bean}

/-- All beans can be made. -/
def Registry.Provided (registry : Registry) : Prop :=
  ∀ bean ∈ registry.beans, ∀ reason, bean.source ≠ .refused reason

namespace Wiring

/-- The making of a bean with an injector of its own. -/
def buildWith (make : Maker) (inject : Injector) (index : ℕ) : Run Unit :=
  withBean index fun bean => do
    modify (·.note (.entered index))
    bean.dependsOn.forM (wireDependency make)
    withBean index (complete inject index)

theorem build_eq (make : Maker) (i : ℕ) : build make i = buildWith make (injector make) i := rfl

/-- The other maker does what the maker does with beans that take part. -/
def Shadows (terms : Terms last) (store : Store) (stack : List ℕ) (make other : Maker) : Prop :=
  ∀ {lazy i c}, (∃ bean, last.beans[i]? = some bean ∧ bean.isAlive = true) →
    Session last store stack c → Run.Twins terms c (make lazy i) (other lazy i)

/-- The injector does what the one of the maker does. -/
def Serves (terms : Terms last) (store : Store) (stack : List ℕ) (make : Maker)
    (inject : Injector) : Prop :=
  ∀ type tag lazy {c}, Session last store stack c →
    Run.Twins terms c (injector make type tag lazy) (inject type tag lazy)

/-! ### Single steps -/

section

variable {run other : Run Unit}

theorem twins_withBean {use use' : Bean → Run Unit} (hb : c.bean? i = some bean)
    (h : Run.Twins terms c (use bean) (use' bean)) :
    Run.Twins terms c (withBean i use) (withBean i use') :=
  h.congr (Run.exec_withBean use hb) (Run.exec_withBean use' hb)

theorem isInternal_annotate (stack : List ℕ) (d : Container) (fault : Fault)
    (h : fault.isInternal = false) : (annotate d stack fault).isInternal = false := by
  cases fault <;> exact h

theorem twins_annotated (stack : List ℕ) (h : Run.Twins terms c run other) :
    Run.Twins terms c (annotated stack run) (annotated stack other) :=
  h.mapError (isInternal_annotate stack) (Run.exec_annotated stack run c)
    (Run.exec_annotated stack other c)

theorem ordinary_runInit (i : ℕ) (owner : String) (scene : Scene) (step : ℕ)
    (hooks : List (List Action)) (c : Container) :
    Ordinary ((runInit i owner scene step hooks).exec c).1 := by
  induction hooks generalizing step c with
  | nil => trivial
  | cons hook rest ih =>
    unfold runInit
    rw [Run.exec_modify_bind]
    exact Run.ordinary_bind (Run.ordinary_ofScript _ _ _ _) fun _ d _ => ih (step + 1) d

/-- A component is kept where there was none, with fields that refer to what is there. -/
theorem twins_settle {component : Component} {owner : String} {scene : Scene}
    {hooks : List (List Action)} (hb : c.bean? i = some bean) (hn : bean.component = none)
    (hf : ∀ field ∈ component.fields, field.2.Refers last c)
    (hhooks : (List.range hooks.length).map (i, ·) = last.hookSteps .init i) :
    Run.Twins terms c (settle i component owner scene hooks)
      (settle i component owner scene hooks) := by
  refine .refl (fun _ d hx => ?_) ?_
  · obtain ⟨d', hc, rfl⟩ := settle_ok hb hn hx
    exact hc.extends_finished hb hn rfl hf hhooks rfl
  · unfold settle
    rw [Run.exec_bind_ok (exec_keep hb hn), exec_setStatus_bind]
    exact Run.ordinary_bind (ordinary_runInit _ _ _ _ _ _) fun _ d _ => trivial

end

/-! ### Makers -/

section

variable {make other : Maker} {inject : Injector}

theorem twins_all (h : Makes last store stack make)
    (hsh : Shadows terms store stack make other) {positions : List ℕ} (lazy : Bool)
    (hp : ∀ j ∈ positions, ∃ bean, last.beans[j]? = some bean ∧ bean.isAlive = true)
    (hs : Session last store stack c) :
    Run.Twins terms c (positions.forM (make lazy)) (positions.forM (other lazy)) := by
  have hkeeps : ∀ j ∈ positions, ∀ c d, Session last store stack c →
      (make lazy j).exec c = (.ok ⟨⟩, d) → Session last store stack d := by
    intro j hj c d hc hx
    obtain ⟨bean, hb, -⟩ := hp j hj
    exact (h (List.getElem?_eq_some_iff.mp hb).1 hc hx).1
  exact .forM (fun j hj c hc => hsh (hp j hj) hc) hkeeps hs

theorem twins_dependency (h : Makes last store stack make)
    (hsh : Shadows terms store stack make other) (selector : Selector)
    (hs : Session last store stack c) :
    Run.Twins terms c (wireDependency make selector) (wireDependency other selector) := by
  have hall : ∀ j ∈ last.find selector, ∃ bean, last.beans[j]? = some bean ∧
      bean.isAlive = true := fun j hj => Registry.alive_of_mem_find hj
  unfold wireDependency
  refine .get ?_
  rw [hs.kept.alike.find]
  generalize last.find selector = positions at hall
  cases positions with
  | nil => exact .throw rfl
  | cons j rest => exact twins_all h hsh false hall hs

/-- The injector of a maker serves where the maker does what it should. -/
theorem serves_injector (h : Makes last store stack make)
    (hsh : Shadows terms store stack make other) :
    Serves terms store stack make (injector other) := by
  intro type tag lazy c hs
  unfold injector
  refine .get ?_
  rw [hs.kept.alike.select]
  rcases hsel : last.select type tag with reason | positions
  · exact .throw (Fault.isInternal_of_isPlain (Registry.plain_select hsel))
  · have hall := twins_all h hsh lazy (fun j hj => Registry.alive_of_select hsel hj) hs
    exact hall.bind fun _ d _ => .refl (fun a e hx => by cases hx; exact .refl last _) trivial

/-- The injector with the one that serves in its place, in sessions that grow from `c`. -/
def mirror (h : Makes last store stack make) (hsv : Serves terms store stack make inject)
    (c : Container) : Mirror terms store where
  toSupply := supply h c
  other := inject
  twins want _ hd := hsv want.type want.tag want.lazy hd.1

/-- The object of a bean is taken once, and the arguments of its constructor have places. -/
theorem twins_construct (h : Makes last store stack make)
    (hsv : Serves terms store stack make inject) (hs : Session last store stack c)
    (ht : bean.taken = false) (hp : ∀ reason, bean.source ≠ .refused reason) :
    Run.Twins terms c (construct (injector make) i bean) (construct inject i bean) := by
  unfold construct
  cases hsource : bean.source with
  | refused reason => exact absurd hsource (hp reason)
  | object made =>
    dsimp only
    rw [ht]
    exact .modify (Container.extends_modifyBean c i fun _ => rfl) (.pure made)
  | constructor callable arguments actions =>
    have hvalues := Agreement.agrees_parameters (mirror h hsv c).agreement.admits_none
      callable.params arguments c ⟨hs, .refl _ _⟩
    rw [funext (Arg.probed_none _)] at hvalues
    refine (hvalues.1.bind fun values d _ => .refl (fun value e hx => ?_) ?_).guarded
      bean.id .construct
    · rw [Run.exec_ofScript] at hx
      obtain ⟨-, rfl⟩ := Prod.mk.inj hx
      have ha := aside_constructorBody bean.toDefinition callable actions values
        (d.note (.called .construct i 0))
      exact (Container.extends_note d rfl rfl rfl).trans ha.extends
    · exact Run.ordinary_ofScript _ _ _ d

/-- **A bean whose dependencies are there is made in the same way.** -/
theorem twins_complete (h : Makes last store (stack ++ [i]) make)
    (hsv : Serves terms store (stack ++ [i]) make inject)
    (hs : Session last store (stack ++ [i]) c) (hb : c.bean? i = some bean)
    (hr : bean.status = .resolved) (hp : last.Provided) :
    Run.Twins terms c (complete (injector make) i bean) (complete inject i bean) := by
  have hi : i ∈ stack ++ [i] := List.mem_concat_self
  obtain ⟨hs1, hc1, hfirst⟩ := session_creating hs hi hb hr
  have hsource := hp bean (List.mem_of_getElem? hfirst)
  rw [complete_eq, complete_eq]
  refine .modify (Container.extends_modifyBean c i fun _ => rfl) ?_
  refine (twins_construct h hsv hs1 (hs.ready.untouched i bean hfirst).1 hsource).bind ?_
  intro value c2 hconstruct
  obtain ⟨middle, taken, new, hs2, hg2, hc2, hn, hn', -⟩ :=
    construct_ok h hs1 hi hc1.here hconstruct
  obtain ⟨hs3, hc3⟩ := session_created hs2 hi ((hg2.stack i hi).trans hc1.here) hc2 hn hn'
  refine .modify (Container.extends_modifyBean c2 i fun _ => rfl) ?_
  have hfields := Agreement.agrees_fields (mirror h hsv _).agreement.admits_none bean.id
    bean.toDefinition _ ⟨hs3, .refl _ _⟩
  rw [Definition.probedFields_none] at hfields
  refine hfields.1.bind fun fields c4 hx => ?_
  obtain ⟨hs4, hg4⟩ := hfields.2 fields c4 hx
  have hb4 := (hg4.stack i hi).trans hc3.here
  have hrefers := (mirror h hsv _).fields_refer ⟨hs3, .refl _ _⟩ hx
  exact twins_settle hb4 (hs4.on_stack hi hb4).2.1 hrefers
    (Registry.hookSteps_of_bean hfirst .init).symm

/-- **A bean is made in the same way with either maker.** -/
theorem twins_build (h : Makes last store (stack ++ [i]) make)
    (hsh : Shadows terms store (stack ++ [i]) make other)
    (hsv : Serves terms store (stack ++ [i]) make inject) (hs : Session last store stack c)
    (hb : c.bean? i = some bean) (hr : bean.status = .resolved) (hi : i ∉ stack)
    (hp : last.Provided) : Run.Twins terms c (build make i) (buildWith other inject i) := by
  have hs1 := hs.push hb hr hi
  have hkeeps : ∀ selector ∈ bean.dependsOn, ∀ c d, Session last store (stack ++ [i]) c →
      (wireDependency make selector).exec c = (.ok ⟨⟩, d) → Session last store (stack ++ [i]) d :=
    fun selector _ c d hc hx => (dependency_ok h hc hx).1
  rw [build_eq]
  unfold buildWith
  refine twins_withBean hb (.modify (Container.extends_note c rfl rfl rfl) ?_)
  refine (Run.Twins.forM (fun selector _ c hc => twins_dependency h hsh selector hc) hkeeps
    hs1).bind fun _ c1 hdep => ?_
  obtain ⟨hs2, hg2, -⟩ := dependencies_ok h hs1 hdep
  have hb2 : c1.bean? i = some bean := (hg2.stack i List.mem_concat_self).trans hb
  exact twins_withBean hb2 (twins_complete h hsv hs2 hb2 hr hp)

/-- Two computations that begin with the same look at a bean that takes part. -/
theorem twins_mustMake {run other : Run Unit} (hs : Session last store stack c)
    (hfirst : last.beans[i]? = some bean) (ha : bean.isAlive = true) {lazy : Bool}
    (hmake : ∀ {now}, c.bean? i = some now → now.status = .resolved → i ∉ stack →
      Run.Twins terms c run other) :
    Run.Twins terms c (mustMake stack lazy i >>= fun b => if b = true then run else pure ())
      (mustMake stack lazy i >>= fun b => if b = true then other else pure ()) := by
  have hv := mustMake_verdict hs lazy i
  have hm : ∀ b d, (mustMake stack lazy i).exec c = (.ok b, d) → d = c ∧
      Run.Twins terms d (if b = true then run else pure ())
        (if b = true then other else pure ()) := by
    intro b d hx
    rw [hx] at hv
    cases hv with
    | there => exact ⟨rfl, .pure ()⟩
    | toMake hb hr hi => exact ⟨rfl, hmake hb hr hi⟩
  refine (Run.Twins.refl (fun b d hx => ?_) ?_).bind fun b d hx => (hm b d hx).2
  · rw [(hm b d hx).1]
    exact .refl last c
  · generalize (mustMake stack lazy i).exec c = result at hv
    cases hv with
    | dropped hb hn =>
      rw [hfirst] at hb
      cases hb
      rw [ha] at hn
      cases hn
    | _ => trivial

/-- A bean that takes part needs no making where there is no room for it, whatever is done then. -/
theorem twins_full {room : ℕ} (hroom : last.beans.length ≤ room + stack.length)
    (hfull : last.beans.length ≤ 0 + stack.length) (hs : Session last store stack c)
    (hfirst : last.beans[i]? = some bean) (ha : bean.isAlive = true) {lazy : Bool}
    (run : Run Unit) :
    Run.Twins terms c (wire room stack lazy i)
      (mustMake stack lazy i >>= fun b => if b = true then run else pure ()) := by
  cases room <;>
    exact twins_mustMake hs hfirst ha fun hb _ hn => absurd (mem_of_full hs hfull hb) hn

/-- **A bean that takes part is made in the same way**, if that is so one bean deeper, and the
injector serves where the one of the other maker does. -/
theorem twins_wire {room : ℕ} (hroom : last.beans.length ≤ room + stack.length)
    (hs : Session last store stack c) (hfirst : last.beans[i]? = some bean)
    (ha : bean.isAlive = true) {lazy : Bool} (hp : last.Provided)
    (hsh : ∀ {room}, last.beans.length ≤ room + (stack ++ [i]).length →
      Shadows terms store (stack ++ [i]) (wire room (stack ++ [i])) other)
    (hsv : ∀ {make}, Makes last store (stack ++ [i]) make →
      Serves terms store (stack ++ [i]) make (injector other) →
        Serves terms store (stack ++ [i]) make inject) :
    Run.Twins terms c (wire room stack lazy i)
      (mustMake stack lazy i >>= fun b =>
        if b = true then annotated (stack ++ [i]) (buildWith other inject i) else pure ()) := by
  cases room with
  | zero => exact twins_full hroom hroom hs hfirst ha _
  | succ room =>
    have hroom' := room_concat hroom i
    have hmakes : Makes last store (stack ++ [i]) (wire room (stack ++ [i])) := wire_makes hroom'
    refine twins_mustMake hs hfirst ha fun hb hr hn => twins_annotated _ ?_
    exact twins_build hmakes (hsh hroom') (hsv hmakes (serves_injector hmakes (hsh hroom'))) hs hb
      hr hn hp

/-- Wiring does the same with any room that is enough: it goes on as it should, and its faults are
ordinary. -/
theorem shadows_wire (hp : last.Provided) (room' : ℕ) : ∀ {stack : List ℕ} {room : ℕ},
    last.beans.length ≤ room + stack.length → last.beans.length ≤ room' + stack.length →
      Shadows terms store stack (wire room stack) (wire room' stack) := by
  induction room' with
  | zero =>
    intro stack room hroom hfull lazy i c ⟨bean, hfirst, ha⟩ hs
    exact twins_full hroom hfull hs hfirst ha _
  | succ room' ih =>
    intro stack room hroom hroom' lazy i c ⟨bean, hfirst, ha⟩ hs
    exact twins_wire hroom hs hfirst ha hp (ih · (room_concat hroom' i)) fun _ => id

end
end Wiring

namespace Container

/-! ### All beans -/

/-- The making of the bean at a position by a maker, unless it was dropped. -/
def rootWith (make : Wiring.Maker) (index : ℕ) : Run Unit :=
  Wiring.withBean index fun bean => do
    if bean.isAlive then make false index

/-- Makes all beans that take part by a maker. -/
def beansWith (make : Wiring.Maker) : Run Unit := do
  (← get).registry.indices.forM (rootWith make)

variable {other : Wiring.Maker}

theorem twins_root (hs : Session last store [] c)
    (hsh : Wiring.Shadows terms store [] (Wiring.wire last.beans.length []) other)
    (hi : i < last.beans.length) :
    Run.Twins terms c (Wiring.wireRoot last.beans.length i) (rootWith other i) := by
  obtain ⟨bean, hb, hst⟩ := hs.bean_of_decided (List.getElem?_eq_getElem hi)
  have ha := (Bean.standing_eq hst).2.1
  refine Wiring.twins_withBean hb ?_
  by_cases halive : bean.isAlive = true
  · rw [if_pos halive, if_pos halive]
    exact hsh ⟨_, List.getElem?_eq_getElem hi, ha ▸ halive⟩ hs
  · rw [if_neg halive, if_neg halive]
    exact .pure ()

/-- **All beans are made in the same way by a maker that does the same.** -/
theorem twins_beans (hs : Session last store [] c)
    (hsh : Wiring.Shadows terms store [] (Wiring.wire last.beans.length []) other) :
    Run.Twins terms c wireBeans (beansWith other) := by
  have hkeeps : ∀ i ∈ List.range last.beans.length, ∀ c d, Session last store [] c →
      (Wiring.wireRoot last.beans.length i).exec c = (.ok ⟨⟩, d) → Session last store [] d :=
    fun i hi c d hc hx => (wireRoot_ok hc (List.mem_range.mp hi) hx).1
  have hall := Run.Twins.forM (fun i hi c hc =>
    twins_root hc hsh (List.mem_range.mp hi)) hkeeps hs
  refine hall.congr (exec_wireBeans hs) ?_
  unfold beansWith Registry.indices
  rw [Run.exec_get_bind, hs.kept.alike.length]

/-! ### The refresh -/

/-- A resolution decides the beans, and leaves their definitions as they were registered. -/
theorem definitions_of_resolve {registry : Registry} (h : registry.resolve store = .ok last) :
    last.beans.map (·.toDefinition) = registry.beans.map (·.toDefinition) := by
  obtain ⟨-, hsettle, -, -⟩ := Registry.resolve_ok h
  exact (Registry.ahead_of_reaches (Registry.settled_of_settle hsettle).reaches).definitions

/-- What a resolution gives are as many beans as were registered, and all of them can be made. -/
theorem provided_of_resolve {registry : Registry} (h : registry.resolve store = .ok last) :
    last.Provided ∧ last.beans.length = registry.beans.length := by
  have hsame := definitions_of_resolve h
  obtain ⟨hrefused, -⟩ := Registry.resolve_ok h
  refine ⟨fun bean hm reason hsource => ?_, ?_⟩
  · have hdefinition := List.mem_map_of_mem (f := fun bean : Bean => bean.toDefinition) hm
    rw [hsame] at hdefinition
    obtain ⟨first, hfirst, he⟩ := List.mem_map.mp hdefinition
    refine Registry.refused?_eq_none_iff.mp hrefused first hfirst reason ?_
    rw [he]
    exact hsource
  · have hlength := congrArg List.length hsame
    rwa [List.length_map, List.length_map] at hlength

/-- A start is a refresh where it makes the beans in the same way. -/
theorem exec_startWith_eq {make : Run Unit}
    (h : ∀ last, c.registry.resolve c.store = .ok last →
      make.exec { c with phase := .refreshing, registry := last } =
        wireBeans.exec { c with phase := .refreshing, registry := last }) :
    (startWith make).exec c = refresh.exec c := by
  rw [exec_refresh, exec_startWith]
  rcases hr : c.registry.resolve c.store with fault | last
  · rfl
  · dsimp only
    rw [h last hr]

/-- **The course of a refresh that succeeds**, from the resolution of the beans on. -/
theorem refresh_course (hc : c.Fresh) (hx : refresh.exec c = (.ok (), d)) :
    ∃ last done, c.registry.resolve c.store = .ok last ∧
      wireBeans.exec { c with phase := .refreshing, registry := last } = (.ok (), done) ∧
      Session last c.store [] done ∧ done.Complete last ∧
      Grows [] [] { c with phase := .refreshing, registry := last } done ∧
      Extends last { c with phase := .refreshing, registry := last } done ∧
      d = { done with phase := .running } := by
  obtain ⟨last, done, hr, hw, hd⟩ := exec_refresh_ok hx
  obtain ⟨hs, hg, hp⟩ := wireBeans_ok (session_start hc hr) hw
  have hself : Wiring.Shadows (.all last) c.store [] (Wiring.wire last.beans.length [])
      (Wiring.wire last.beans.length []) :=
    Wiring.shadows_wire (provided_of_resolve hr).1 _ (Nat.le_add_right _ _) (Nat.le_add_right _ _)
  have hextends := (twins_beans (session_start hc hr) hself).extends_ok () done hw
  exact ⟨last, done, hr, hw, hs, hp, hg, hextends, hd⟩

end Container
end BeanContainer
