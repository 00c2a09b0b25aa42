/-
# One instance for each bean

A bean is referred to by its position, and what a reference stands for is the component that is kept
there. To say so of every reference that wiring hands out, the injectors are observed: an observer
sees each handle when it is given, with the component that its bean has then (`Wiring.observed`). An
observer that does nothing about handles that are as they should be changes nothing, whatever it
would do about others: so there are no others (`Container.refresh_instances`).

Key definitions: `Observer`, `Observer.Trusts`, `Wiring.observing`, `Wiring.observed`,
`Container.observedRefresh`.
Key theorems: `Wiring.serves_observing`, `Wiring.shadows_observed`, `Session.component_refers`,
`Session.lazy_view`, `Container.refresh_instances`.
-/
import BeanContainer.Proofs.Container.LateReference
import BeanContainer.Proofs.Container.Shadow

namespace BeanContainer

variable {last : Registry} {store : Store} {stack : List ℕ} {c d e : Container} {i : ℕ}

/-- What is done about a handle that is given for a type, with the component that its bean has at
that moment. -/
abbrev Observer := TypeName → (lazy : Bool) → Handle → (now : Option Component) → Run Unit

/-- The observer does nothing about a handle that names a bean that takes part, as a bean of the type
that was asked for, if the component of that bean is the one that it has in the end. Under a late
reference there may be none yet. -/
def Observer.Trusts (observe : Observer) (final : Container) : Prop :=
  ∀ type lazy handle now component, final.registry.Names handle → handle.type = type →
    final.component? handle.bean = some component →
    (now = some component ∨ lazy = true ∧ now = none) → observe type lazy handle now = pure ()

namespace Wiring

variable {observe : Observer} {final : Container}

/-! ### Observation -/

/-- Shows the observer handles, each with the component that its bean has now. -/
def look (observe : Observer) (type : TypeName) (lazy : Bool) (handles : List Handle) :
    Run (List Handle) := do
  let container ← get
  handles.forM fun handle => observe type lazy handle (container.component? handle.bean)
  return handles

/-- The injector with an observer that sees each handle that it gives. -/
def observing (observe : Observer) (inject : Injector) : Injector := fun type tag lazy => do
  look observe type lazy (← inject type tag lazy)

/-- The making of a bean as `wire` does it, with injectors that are observed. -/
def observed (observe : Observer) : (room : ℕ) → (stack : List ℕ) → Maker
  | 0, stack, lazy, index => do
    if ← mustMake stack lazy index then throw (cycle (← get) stack index)
  | room + 1, stack, lazy, index => do
    if ← mustMake stack lazy index then
      annotated (stack ++ [index])
        (buildWith (observed observe room (stack ++ [index]))
          (observing observe (injector (observed observe room (stack ++ [index])))) index)

/-- The containers whose components are those of the last one. -/
def towards (last : Registry) (final : Container) : Terms last where
  accepts c := ∀ i component, c.component? i = some component →
    final.component? i = some component
  back h hd i component hc := hd i component (h.components i component hc)

/-! ### Nothing to see -/

theorem exec_look {type : TypeName} {lazy : Bool} {handles : List Handle}
    (h : ∀ handle ∈ handles, observe type lazy handle (c.component? handle.bean) = pure ()) :
    (look observe type lazy handles).exec c = (.ok handles, c) := by
  have hquiet : ∀ rest ⊆ handles, Run.exec
      (rest.forM fun handle => observe type lazy handle (c.component? handle.bean)) c =
        (.ok ⟨⟩, c) := by
    intro rest hsub
    induction rest with
    | nil => rfl
    | cons handle rest ih =>
      rw [Run.forM_cons, h handle (hsub List.mem_cons_self)]
      exact ih fun other hm => hsub (List.mem_cons_of_mem handle hm)
  unfold look
  rw [Run.exec_get_bind, Run.exec_bind_ok (hquiet handles (List.Subset.refl _))]
  rfl

/-- **An injector that serves still does when it is observed**, if the beans that it gives end up with
the components that they have. -/
theorem serves_observing {make : Maker} {inject : Injector} (h : Makes last store stack make)
    (hsv : Serves (towards last final) store stack make inject) (ho : observe.Trusts final)
    (halike : last.Alike final.registry) (hfinal : final.Complete last) :
    Serves (towards last final) store stack make (observing observe inject) := by
  intro type tag lazy c hs
  refine (hsv type tag lazy hs).bind_quiet fun handles d hx haccepts => exec_look ?_
  intro handle hm
  obtain ⟨⟨hnames, htype⟩, hpresent⟩ :=
    (supply h c).vouches ⟨hs, .refl _ _⟩ tag lazy handles d hx handle hm
  have hexists : ∃ component, final.component? handle.bean = some component := by
    obtain ⟨bean, hb, halive, -, -⟩ := hnames
    exact Option.isSome_iff_exists.mp (hfinal handle.bean bean hb halive)
  obtain ⟨component, hcomponent⟩ := hexists
  refine ho type lazy handle _ component (halike.names hnames) htype hcomponent ?_
  rcases hnow : d.component? handle.bean with _ | now
  · -- there is no component yet, so the reference is a late one
    refine .inr ⟨?_, rfl⟩
    by_contra hl
    have hthere : (d.component? handle.bean).isSome = true :=
      hpresent (Bool.eq_false_of_not_eq_true hl)
    rw [hnow] at hthere
    cases hthere
  · have hend := haccepts handle.bean now hnow
    rw [hcomponent] at hend
    exact .inl hend.symm

/-- **The observed maker does what the maker does**, if the observer trusts the end and there is room
for all beans. -/
theorem shadows_observed (hp : last.Provided) (ho : observe.Trusts final)
    (halike : last.Alike final.registry) (hfinal : final.Complete last) (room' : ℕ) :
    ∀ {stack : List ℕ} {room : ℕ}, last.beans.length ≤ room + stack.length →
      last.beans.length ≤ room' + stack.length →
        Shadows (towards last final) store stack (wire room stack)
          (observed observe room' stack) := by
  induction room' with
  | zero =>
    intro stack room hroom hfull lazy i c ⟨bean, hfirst, ha⟩ hs
    exact twins_full hroom hfull hs hfirst ha _
  | succ room' ih =>
    intro stack room hroom hroom' lazy i c ⟨bean, hfirst, ha⟩ hs
    exact twins_wire hroom hs hfirst ha hp (ih · (room_concat hroom' i)) fun hmakes hsv =>
      serves_observing hmakes hsv ho halike hfinal

end Wiring

/-! ### When all beans are made -/

namespace Session

variable {bean : Bean}

/-- The beans that were entered since none was made are those that take part, each once. -/
theorem entered_alive (hs : Session last store [] d) (hp : d.Complete last)
    (hg : Container.Grows [] [] c d) (ho : c.order = []) :
    ∃ entered, d.entries = c.entries ++ entered ∧ entered.Nodup ∧
      ∀ i, i ∈ entered ↔ ∃ bean, d.bean? i = some bean ∧ bean.isAlive = true := by
  obtain ⟨entered, made, hentered, hmade, hperm⟩ := hg.steps
  rw [ho, List.nil_append] at hmade
  rw [List.nil_append, ← hmade] at hperm
  refine ⟨entered, hentered, hperm.nodup_iff.mpr hs.order_nodup, fun i => ?_⟩
  rw [hperm.mem_iff]
  exact hs.mem_order_iff hp

/-- Where there were no components before, the fields of a bean refer to what there is now. -/
theorem component_refers (hs : Session last store stack d) (hp : d.Complete last)
    (he : Container.Extends last c d) (hc : ∀ i, c.component? i = none)
    (hb : d.bean? i = some bean) (ha : bean.isAlive = true) :
    ∃ component, bean.component = some component ∧
      ∀ field ∈ component.fields, field.2.Refers d.registry d := by
  obtain ⟨component, hcomponent⟩ := Option.isSome_iff_exists.mp
    ((Container.present_iff_of_bean hb).mp (hs.present_of_alive hp hb ha))
  have hthere : d.component? i = some component :=
    (Container.component?_of_bean hb).trans hcomponent
  refine ⟨component, hcomponent, fun field hm => ?_⟩
  rcases he.fields i component hthere with hbefore | hrefers
  · rw [hc] at hbefore
    cases hbefore
  · exact (hrefers field hm).alike hs.kept.alike

/-- What a handle names is there, and a late reference to it yields it. -/
theorem lazy_view (hs : Session last store stack d) (hp : d.Complete last) {handle : Handle}
    (hn : d.registry.Names handle) :
    ∃ bean, d.bean? handle.bean = some bean ∧ bean.component.isSome = true ∧
      d.view (.lazy (some handle)) = .lazy (some bean.id) (some bean.label) := by
  obtain ⟨bean, hb, ha, hid, -⟩ := hn
  have hpresent := hs.present_of_alive hp hb ha
  refine ⟨bean, hb, (Container.present_iff_of_bean hb).mp hpresent, ?_⟩
  unfold Container.view
  rw [Value.view, Container.present?_of_present hb hpresent, hid]

end Session

namespace Container

/-- The start of a container in which all injectors are observed. -/
def observedRefresh (observe : Observer) (room : ℕ) : Run Unit :=
  startWith (beansWith (Wiring.observed observe room []))

/-- An observed start is the start, if the observer trusts its end. -/
theorem exec_observedRefresh {done : Container} (hc : c.Fresh)
    (hr : c.registry.resolve c.store = .ok last)
    (hw : wireBeans.exec { c with phase := .refreshing, registry := last } = (.ok (), done))
    (hs : Session last c.store [] done) (hp : done.Complete last) {observe : Observer}
    (ho : observe.Trusts done) {room : ℕ} (hroom : c.registry.beans.length ≤ room) :
    (observedRefresh observe room).exec c = refresh.exec c := by
  refine exec_startWith_eq fun last' hr' => ?_
  obtain rfl : last = last' := Except.ok.inj (hr.symm.trans hr')
  obtain ⟨hprovided, hlength⟩ := provided_of_resolve hr
  have hsh : Wiring.Shadows (Wiring.towards last done) c.store []
      (Wiring.wire last.beans.length []) (Wiring.observed observe room []) :=
    Wiring.shadows_observed hprovided ho hs.kept.alike hp room (Nat.le_add_right _ _)
      (hlength ▸ hroom)
  refine (twins_beans (session_start hc hr) hsh).same ?_
  rw [hw]
  exact fun _ _ => id

/-- **Each bean has one instance, and no reference dangles.** A refresh that succeeds enters each bean
that takes part once, calls its constructor at most once, and leaves it a component whose fields
refer to beans that are there. Whoever observes the handles that the injectors give meanwhile, at
injection points of any kind and for types of any kind, sees nothing but the components that the
beans have in the end, or, under late references, none yet. In the end a late reference yields the
bean whose id it reports. What is asked for later refers to the same components. -/
theorem refresh_instances (hc : c.Fresh) (hx : refresh.exec c = (.ok (), d)) :
    (∃ entered, d.entries = c.entries ++ entered ∧ entered.Nodup ∧
      ∀ i, i ∈ entered ↔ ∃ bean, d.bean? i = some bean ∧ bean.isAlive = true) ∧
    (∀ i bean, d.bean? i = some bean → bean.isAlive = true →
      (d.calls .construct i).length ≤ 1 ∧ ∃ component, bean.component = some component ∧
        ∀ field ∈ component.fields, field.2.Refers d.registry d) ∧
    (∀ observe : Observer, observe.Trusts d → ∀ room, c.registry.beans.length ≤ room →
      (observedRefresh observe room).exec c = refresh.exec c) ∧
    (∀ handle, d.registry.Names handle → ∃ bean, d.bean? handle.bean = some bean ∧
      bean.component.isSome = true ∧
      d.view (.lazy (some handle)) = .lazy (some bean.id) (some bean.label)) ∧
    ∀ e, d.Aside e → (∀ i, e.component? i = d.component? i) ∧
      ∀ tag injection value f, (Context.get tag injection).exec e = (.ok value, f) →
        e.Aside f ∧ value.Refers d.registry e := by
  obtain ⟨last, done, hr, hw, hs, hp, hgrows, hextends, rfl⟩ := refresh_course hc hx
  have hstart : ∀ i, ({ c with phase := .refreshing, registry := last } : Container).component? i =
      none := by
    intro i
    show last.beans[i]?.bind (·.component) = none
    rcases hb : last.beans[i]? with _ | bean
    · rfl
    · exact (hs.ready.untouched i bean hb).2
  have hlate : ∀ handle, done.registry.Names handle → ∃ bean,
      done.bean? handle.bean = some bean ∧ bean.component.isSome = true ∧
        done.view (.lazy (some handle)) = .lazy (some bean.id) (some bean.label) :=
    fun _ => hs.lazy_view hp
  have hentered := hs.entered_alive hp hgrows hc.order
  refine ⟨hentered, fun i bean hb ha => ⟨?_, ?_⟩,
    fun observe ho room => exec_observedRefresh hc hr hw hs hp ho, hlate, fun e he => ?_⟩
  · obtain ⟨-, -, -, -, hconstructed, -⟩ := hs.made_of_mem ((hs.mem_order_iff hp).mpr ⟨bean, hb, ha⟩)
    exact hconstructed
  · obtain ⟨component, hcomponent, hrefers⟩ := hs.component_refers hp hextends hstart hb ha
    exact ⟨component, hcomponent, fun field hm => (hrefers field hm).mono fun _ => id⟩
  · refine ⟨he.component?, fun tag injection value f hget => ?_⟩
    have hthere : ∀ handle, e.registry.Names handle → e.Present handle.bean := by
      intro handle hn
      rw [he.registry] at hn
      obtain ⟨bean, hb, hsome, -⟩ := hlate handle hn
      exact he.present ((present_iff_of_bean hb).mpr hsome)
    have hrefers := Context.get_refers hthere hget
    rwa [he.registry] at hrefers

/-- Objects to a bean that is not there when it is wanted at once. -/
def objecting : Observer := fun _ lazy _ now =>
  if now.isNone && !lazy then throw .cancelled else pure ()

/-- The first bean is referred to late by the second one while it is being made. -/
theorem refresh_instances_pair : ∃ d,
    refresh.exec (pair.reverse.foldl register (ofStore .empty)) = (.ok (), d) ∧
      (observedRefresh objecting 2).exec (pair.reverse.foldl register (ofStore .empty)) =
        (.ok (), d) ∧
      (d.component? 1).map (·.fields) = some [("other", .lazy (some ⟨0, "B", ⟨"B"⟩⟩))] ∧
      d.view (.lazy (some ⟨0, "B", ⟨"B"⟩⟩)) = .lazy (some "B") (some "B") := by
  have hok : (refresh.exec (pair.reverse.foldl register (ofStore .empty))).1 = .ok () := by cbv
  generalize hx : refresh.exec (pair.reverse.foldl register (ofStore .empty)) = result at hok
  obtain ⟨outcome, d⟩ := result
  cases hok
  have hd : d = (refresh.exec (pair.reverse.foldl register (ofStore .empty))).2 := by rw [hx]
  have hfields : (d.component? 1).map (·.fields) =
      some [("other", .lazy (some ⟨0, "B", ⟨"B"⟩⟩))] := by
    rw [hd]
    cbv
  have hbean : (d.bean? 0).map (fun bean => (bean.isAlive, bean.id, bean.label, bean.exports)) =
      some (true, "B", "B", [⟨"B"⟩]) := by
    rw [hd]
    cbv
  obtain ⟨-, -, hobserve, hyield, -⟩ :=
    refresh_instances (fresh_register .empty pair.reverse) hx
  have htrusts : objecting.Trusts d := by
    rintro type lazy handle now component - - - (rfl | ⟨rfl, rfl⟩) <;> rfl
  obtain ⟨bean, hb, he⟩ := Option.map_eq_some_iff.mp hbean
  simp only [Prod.mk.injEq] at he
  obtain ⟨ha, hid, hlabel, hexports⟩ := he
  have hnames : d.registry.Names ⟨0, "B", ⟨"B"⟩⟩ :=
    ⟨bean, hb, ha, hid, hexports ▸ List.mem_cons_self⟩
  obtain ⟨bean', hb', -, hview⟩ := hyield _ hnames
  cases hb.symm.trans hb'
  rw [hid, hlabel] at hview
  exact ⟨d, rfl, (hobserve objecting htrusts 2 le_rfl).trans hx, hfields, hview⟩

/-- An observer that objects to any bean that is not there sees the late reference. -/
example : ((observedRefresh
    (fun _ _ _ now => if now.isNone then throw .cancelled else pure ()) 2).exec
      (pair.reverse.foldl register (ofStore .empty))).1 =
    .error (.wiring ["B", "A"] .cancelled) := by cbv

end Container
end BeanContainer
