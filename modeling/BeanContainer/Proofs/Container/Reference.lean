/-
# References

What injection points are filled with refers to beans that are there, and late to beans that take
part (`Value.Refers`), whenever the injector gives handles of such beans. That stays so while beans
are made, so it holds of all fields of a component once the last one is filled.

Key definitions: `Injector.Vouches`.
Key theorems: `Injection.fill_refers`, `Supply.vouches`, `Context.get_refers`,
`Mirror.fields_refer`.
-/
import BeanContainer.Proofs.Container.Twins
import BeanContainer.Proofs.Entries

namespace BeanContainer

variable {α β : Type} {last : Registry} {store : Store} {inject : Injector} {type : TypeName}
  {tag : AutowireTag} {c d : Container}

/-- The handles that the injector gives for a type in `c` name beans that take part, as beans of that
type. Those that are wanted at once are there then. -/
def Injector.Vouches (last : Registry) (inject : Injector) (type : TypeName) (c : Container) :
    Prop :=
  ∀ tag lazy handles d, (inject type tag lazy).exec c = (.ok handles, d) →
    ∀ handle ∈ handles, (last.Names handle ∧ handle.type = type) ∧
      (lazy = false → d.Present handle.bean)

/-! ### Handles -/

/-- A reference to a bean is given only if it is there. -/
theorem Handle.require_ok {handle : Handle} {value : Value}
    (hx : handle.require.exec c = (.ok value, d)) :
    d = c ∧ value = .bean handle.bean ∧ c.Present handle.bean := by
  unfold Handle.require at hx
  rw [Run.exec_get_bind] at hx
  rcases hc : c.component? handle.bean with _ | component
  · rw [hc] at hx
    cases hx
  · rw [hc] at hx
    cases hx
    exact ⟨rfl, rfl, Option.isSome_iff_exists.mpr ⟨component, hc⟩⟩

/-- What changes nothing on the items of a list and has a property has it of all that it gives. -/
theorem Run.mapM_ok {f : α → Run β} {holds : α → β → Prop} {items : List α} {results : List β}
    (h : ∀ a ∈ items, ∀ b d, (f a).exec c = (.ok b, d) → d = c ∧ holds a b)
    (hx : (items.mapM f).exec c = (.ok results, d)) :
    d = c ∧ ∀ b ∈ results, ∃ a ∈ items, holds a b := by
  induction items generalizing results with
  | nil =>
    cases hx
    exact ⟨rfl, fun b hb => nomatch hb⟩
  | cons a rest ih =>
    rw [List.mapM_cons] at hx
    obtain ⟨b, c1, hone, hmore⟩ := Run.bind_ok_inv hx
    obtain ⟨bs, c2, hrest, hend⟩ := Run.bind_ok_inv hmore
    cases hend
    obtain ⟨rfl, hb⟩ := h a List.mem_cons_self b c1 hone
    obtain ⟨rfl, hbs⟩ := ih (fun a hm => h a (List.mem_cons_of_mem _ hm)) hrest
    refine ⟨rfl, fun b' hm => ?_⟩
    rcases List.mem_cons.mp hm with rfl | hm
    · exact ⟨a, List.mem_cons_self, hb⟩
    · obtain ⟨a', ha', hb'⟩ := hbs b' hm
      exact ⟨a', List.mem_cons_of_mem _ ha', hb'⟩

namespace Injector.Vouches

theorem atMostOne {lazy : Bool} {target : Option Handle} (h : Vouches last inject type c)
    (hx : (Injection.atMostOne inject type tag lazy).exec c = (.ok target, d)) :
    ∀ handle ∈ target, last.Names handle := by
  obtain ⟨handles, c1, hgives, hx⟩ := Run.bind_ok_inv hx
  have hall := h tag lazy handles c1 hgives
  match handles with
  | [] =>
    dsimp only at hx
    split at hx <;> cases hx
    exact fun handle hm => nomatch hm
  | [handle] =>
    cases hx
    rintro _ ⟨⟩
    exact (hall handle List.mem_cons_self).1.1
  | _ :: _ :: _ => cases hx

theorem several {handles : List Handle} (h : Vouches last inject type c)
    (hx : (Injection.several inject type tag).exec c = (.ok handles, d)) :
    ∀ handle ∈ handles, last.Names handle ∧ d.Present handle.bean := by
  obtain ⟨given, c1, hgives, hx⟩ := Run.bind_ok_inv hx
  split at hx <;> cases hx
  intro handle hm
  obtain ⟨⟨hn, -⟩, hp⟩ := h tag false handles d hgives handle hm
  exact ⟨hn, hp rfl⟩

theorem survey {lazy : Bool} {probe : Condition} {found : Survey} (h : Vouches last inject type c)
    (hx : (Injection.survey inject type tag lazy probe).exec c = (.ok found, d)) :
    ∀ entry ∈ found.handles, last.Names entry.1 ∧
      (entry.2 = true → d.Present entry.1.bean) := by
  obtain ⟨handles, c1, hgives, hx⟩ := Run.bind_ok_inv hx
  rw [Run.exec_get_bind] at hx
  obtain ⟨decision, c2, hprobe, hx⟩ := Run.bind_ok_inv hx
  rw [Run.exec_answer, probe.exec_decideNow] at hprobe
  obtain ⟨-, rfl⟩ := Prod.mk.inj hprobe
  cases hx
  intro entry hm
  obtain ⟨handle, hmem, rfl⟩ := List.mem_map.mp hm
  exact ⟨(h tag lazy handles c1 hgives handle hmem).1.1, id⟩

end Injector.Vouches

/-! ### Injection points -/

/-- **What an injection point is filled with refers to beans of the injector.** -/
theorem Injection.fill_refers {injection : Injection} {value : Value}
    (h : inject.Vouches last injection.type c)
    (hx : (injection.fill inject tag).exec c = (.ok value, d)) : value.Refers last d := by
  obtain ⟨receiver, type⟩ := injection
  have hrequire : ∀ {handle : Handle} {value c1}, handle.require.exec c1 = (.ok value, d) →
      value.Refers last d := by
    intro handle value c1 hone
    obtain ⟨rfl, rfl, hp⟩ := Handle.require_ok hone
    exact hp
  cases receiver with
  | one =>
    obtain ⟨target, c1, htarget, hx⟩ := Run.bind_ok_inv hx
    cases target with
    | none => cases hx
    | some handle => exact hrequire hx
  | optional =>
    obtain ⟨target, c1, htarget, hx⟩ := Run.bind_ok_inv hx
    cases target with
    | none =>
      cases hx
      trivial
    | some handle => exact hrequire hx
  | many =>
    obtain ⟨handles, c1, hhandles, hmore⟩ := Run.bind_ok_inv hx
    obtain ⟨items, c2, hitems, hend⟩ := Run.bind_ok_inv hmore
    obtain ⟨rfl, hall⟩ := Run.mapM_ok (fun handle _ item e => Handle.require_ok) hitems
    cases hend
    intro item hm
    obtain ⟨handle, -, rfl, hp⟩ := hall item hm
    exact ⟨handle.bean, rfl, hp⟩
  | byId =>
    obtain ⟨handles, c1, hhandles, hmore⟩ := Run.bind_ok_inv hx
    obtain ⟨entries, c2, hentries, hend⟩ := Run.bind_ok_inv hmore
    have hnames := h.several hhandles
    have hone : ∀ handle ∈ handles, ∀ entry e,
        (do return (handle.id, ← handle.require) : Run (String × Value)).exec c1 = (.ok entry, e) →
          e = c1 ∧ entry = (handle.id, .bean handle.bean) := by
      intro handle _ entry e he
      obtain ⟨item, c3, hitem, he⟩ := Run.bind_ok_inv he
      obtain ⟨rfl, rfl, -⟩ := Handle.require_ok hitem
      cases he
      exact ⟨rfl, rfl⟩
    obtain ⟨rfl, hall⟩ := Run.mapM_ok hone hentries
    cases hend
    intro entry hm
    obtain ⟨handle, hmem, rfl⟩ := hall entry (Entries.mem_ofPairs hm)
    obtain ⟨⟨bean, hb, -, hid, -⟩, hp⟩ := hnames handle hmem
    exact ⟨handle.bean, bean, rfl, hp, hb, hid⟩
  | lazy =>
    obtain ⟨target, c1, htarget, hx⟩ := Run.bind_ok_inv hx
    cases hx
    exact h.atMostOne htarget
  | context =>
    cases hx
    trivial
  | survey lazy probe =>
    obtain ⟨found, c1, hfound, hx⟩ := Run.bind_ok_inv hx
    cases hx
    exact h.survey hfound

/-- A supply gives the beans that a tag picks, and those that are wanted at once are there. -/
theorem Supply.vouches (s : Supply last store) (hc : s.holds c) :
    s.injector.Vouches last type c := by
  intro tag lazy handles d hx handle hm
  let want : Want := ⟨type, tag, lazy⟩
  have hgives : (s.injector want.type want.tag want.lazy).exec c = (.ok handles, d) := hx
  obtain ⟨-, positions, hselect, he, -⟩ := s.gives hc hgives
  refine ⟨Registry.names_of_select hselect (he ▸ hm), fun hl => ?_⟩
  exact s.present_of_gives hc hgives hl handle hm

/-- The container itself is only looked at. -/
theorem Context.exec_live (type : TypeName) (tag : AutowireTag) (lazy : Bool) (c : Container) :
    (live type tag lazy).exec c =
      (match c.registry.select type tag with
        | .ok positions => .ok (c.registry.handles type positions)
        | .error reason => .error (.lookup reason), c) := by
  unfold live
  rw [Run.exec_get_bind]
  dsimp only
  cases c.registry.select type tag <;> rfl

/-- Where all beans are there that take part, the container itself gives such. -/
theorem Context.live_vouches (h : ∀ handle, c.registry.Names handle → c.Present handle.bean) :
    Injector.Vouches c.registry live type c := by
  intro tag lazy handles d hx handle hm
  rw [exec_live] at hx
  rcases hs : c.registry.select type tag with reason | positions <;> rw [hs] at hx <;> cases hx
  have hn := Registry.names_of_select hs hm
  exact ⟨hn, fun _ => h handle hn.1⟩

/-- What the context gives refers to beans of the container. -/
theorem Context.get_refers {tag : String} {injection : Injection} {value : Value}
    (h : ∀ handle, c.registry.Names handle → c.Present handle.bean)
    (hx : (get tag injection).exec c = (.ok value, d)) :
    c.Aside d ∧ value.Refers c.registry c := by
  obtain ⟨_, c1, hfrozen, hmore⟩ := Run.bind_ok_inv hx
  rw [exec_requireFrozen] at hfrozen
  obtain ⟨-, rfl⟩ := Prod.mk.inj hfrozen
  obtain ⟨parsed, c2, hparse, hfill⟩ := Run.bind_ok_inv hmore
  rw [Run.exec_ofExcept] at hparse
  obtain ⟨-, rfl⟩ := Prod.mk.inj hparse
  have haside : c.Aside d := by
    have ha := Agreement.live.agrees_fill parsed injection c
    change c.Beside ((injection.fill live parsed).exec c).2 at ha
    rw [hfill] at ha
    exact ha.aside
  refine ⟨haside, (injection.fill_refers (live_vouches h) hfill).mono fun i hp => ?_⟩
  unfold Container.Present at hp ⊢
  rwa [haside.component?] at hp

/-! ### Fields -/

namespace Mirror

variable {terms : Terms last} (m : Mirror terms store) {owner : String} {definition : Definition}

theorem step_refers {step : FieldStep} {field : Option (String × Value)} (hc : m.holds c)
    (hx : (step.run m.injector owner definition).exec c = (.ok field, d)) :
    ∀ entry ∈ field, entry.2.Refers last d := by
  cases step with
  | announce | shutdown =>
    cases hx
    exact fun entry hm => nomatch hm
  | value name tag validator schema =>
    obtain ⟨target, c1, -, hx⟩ := Run.bind_ok_inv hx
    rw [Run.exec_get_bind] at hx
    obtain ⟨data, c2, -, hx⟩ := Run.bind_ok_inv hx
    cases hx
    rintro _ ⟨⟩
    trivial
  | autowire name tag injection =>
    obtain ⟨parsed, c1, hparse, hx⟩ := Run.bind_ok_inv hx
    rw [Run.exec_ofExcept] at hparse
    obtain ⟨-, rfl⟩ := Prod.mk.inj hparse
    obtain ⟨value, c2, hfill, hx⟩ := Run.bind_ok_inv hx
    cases hx
    rintro _ ⟨⟩
    exact injection.fill_refers (m.vouches hc) hfill
  | logger name | find name selector | property name key =>
    cases hx
    rintro _ ⟨⟩
    trivial
  | fail reason | panic reason => cases hx

theorem steps_refer {steps : List FieldStep} {fields : List (String × Value)} (hc : m.holds c)
    (hx : (FieldStep.runAll m.injector owner definition steps).exec c = (.ok fields, d)) :
    ∀ field ∈ fields, field.2.Refers last d := by
  induction steps generalizing c fields with
  | nil =>
    cases hx
    exact fun field hm => nomatch hm
  | cons step rest ih =>
    obtain ⟨field, c1, hone, hx⟩ := Run.bind_ok_inv hx
    obtain ⟨more, c2, hrest, hx⟩ := Run.bind_ok_inv hx
    cases hx
    obtain ⟨-, hkeeps⟩ := m.agreement.agrees_step owner definition step c hc
    have hc1 := hkeeps field c1 hone
    obtain ⟨htwins, -⟩ := Agreement.agrees_steps m.agreement.admits_none owner definition rest c1 hc1
    intro entry hm
    rcases List.mem_append.mp hm with hm | hm
    · -- what was there when the field was filled still is when the other ones are
      have hextends := htwins.extends_ok more d hrest
      exact hextends.refers (m.step_refers hc hone entry (Option.mem_toList.mp hm))
    · exact ih hc1 hrest entry hm

/-- **The fields of a component refer to beans that are there.** -/
theorem fields_refer {fields : List (String × Value)} (hc : m.holds c)
    (hx : (definition.wireFields m.injector owner).exec c = (.ok fields, d)) :
    ∀ field ∈ fields, field.2.Refers last d :=
  m.steps_refer hc (Run.exec_guarded_ok.mp hx)

end Mirror
end BeanContainer
