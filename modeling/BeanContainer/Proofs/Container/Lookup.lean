/-
# Lookup in a running container

A field is filled in the middle of a run, when some beans are there, some are under construction and
some are not begun. Still it gets what the context gives for its tag once the container runs: all
that the search sees of a bean stays the same from the resolution on.

Key definitions: `Container.Serves`.
Key theorems: `Registry.Gives.live`, `Session.filled_served`, `Container.refresh_lookup`.
-/
import BeanContainer.Proofs.Container.Closing

namespace BeanContainer

variable {last : Registry} {c d e : Container} {i : ℕ} {bean : Bean}

/-- Where all beans are there, an injection point is filled with what the registry gives it. -/
theorem Registry.Gives.live {tag : AutowireTag} {injection : Injection} {value : Value}
    (h : last.Gives tag injection value) (halike : last.Alike e.registry)
    (hall : ∀ handle, last.Names handle → e.Present handle.bean) :
    (injection.fill Context.live tag).exec e = (.ok value, e) := by
  cases h with
  | context => rfl
  | @beans receiver type lazy positions _ hr hselect hgift =>
    have hanswer : (Context.live type (receiver.asking tag) lazy).exec e =
        (.ok (last.handles type positions), e) := by
      rw [Context.exec_live, halike.select, hselect]
      dsimp only
      rw [halike.handles]
    have hgives := Injection.gives_fill hr hanswer fun _ handle hm =>
      hall handle (Registry.names_of_select hselect hm).1
    rw [hgift] at hgives
    exact Run.gives_some.mp hgives

/-- What the context gives for a tag in a running container. -/
theorem Context.exec_get (hp : e.phase = .running) (tag : String) (injection : Injection) :
    (get tag injection).exec e =
      match AutowireTag.parse tag with
      | .error fault => (.error fault, e)
      | .ok parsed => (injection.fill live parsed).exec e := by
  have hfrozen : requireFrozen.exec e = (.ok (), e) := by
    rw [exec_requireFrozen, hp]
    rfl
  unfold get
  rw [Run.exec_bind_ok hfrozen, Run.exec_bind, Run.exec_ofExcept]
  rcases AutowireTag.parse tag with fault | parsed <;> rfl

namespace Container

/-- The container runs, and what was decided about its beans holds: all that take part are there. -/
structure Serves (last : Registry) (e : Container) : Prop where
  running : e.phase = .running
  alike : last.Alike e.registry
  present : ∀ handle, last.Names handle → e.Present handle.bean

/-- What a field was filled with, the context gives once the container serves. -/
theorem Serves.get (he : e.Serves last) {tag : String} {injection : Injection} {value : Value}
    (h : last.Fills tag injection value) (hn : ¬ injection.IsSurvey) :
    (Context.get tag injection).exec e = (.ok value, e) := by
  obtain ⟨parsed, htag, hgives⟩ := h hn
  rw [Context.exec_get he.running, htag]
  exact hgives.live he.alike he.present

end Container

namespace Session

variable {store : Store}

/-- Where all beans are there, a container that starts to run serves from then on. -/
theorem serves (hs : Session last store [] d) (hp : d.Complete last)
    (ha : Container.Aside { d with phase := .running } e) : e.Serves last where
  running := ha.phase
  alike := by
    rw [ha.registry]
    exact hs.kept.alike
  present := by
    rintro handle ⟨first, hf, hfirst, -⟩
    exact ha.present (hp handle.bean first hf hfirst)

/-- The fields of a bean that takes part hold what the context gives for them. -/
theorem filled_served (hs : Session last store [] d) (hp : d.Complete last)
    (hb : d.bean? i = some bean) (halive : bean.isAlive = true) (he : e.Serves last) :
    ∃ component, bean.component = some component ∧
      FieldStep.Filled (fun tag injection value => ¬ injection.IsSurvey →
        (Context.get tag injection).exec e = (.ok value, e)) bean.fields component.fields := by
  have hi : i ∈ d.order := (hs.mem_order_iff hp).mpr ⟨bean, hb, halive⟩
  obtain ⟨bean', hb', -, hcomponent, -⟩ := hs.made_of_mem hi
  rw [hb] at hb'
  cases hb'
  obtain ⟨component, hcomponent⟩ := Option.isSome_iff_exists.mp hcomponent
  exact ⟨component, hcomponent,
    (hs.filled_of_mem hi hb hcomponent).imp fun tag injection value hfills hn => he.get hfills hn⟩

end Session

namespace Container

/-- **Lookup in a running container agrees with the injection of fields.** After a refresh that
succeeds, each bean that takes part has a component, with the fields that its steps filled, in their
order. Whatever bean and whenever in the run it was: of a field that takes beans, the context now
gives for the same tag and injection point the very value that the field got, and it does so later
on as well. -/
theorem refresh_lookup (hc : c.Fresh) (hx : refresh.exec c = (.ok (), d)) (ha : d.Aside e)
    (hb : d.bean? i = some bean) (halive : bean.isAlive = true) :
    ∃ component, bean.component = some component ∧
      FieldStep.Filled (fun tag injection value => ¬ injection.IsSurvey →
        (Context.get tag injection).exec e = (.ok value, e)) bean.fields component.fields := by
  obtain ⟨last, done, -, -, hs, hp, -, -, rfl⟩ := refresh_course hc hx
  change done.bean? i = some bean at hb
  exact hs.filled_served hp hb halive (hs.serves hp ha)

/-- A bean that takes two others as parts, and late one of them. They stand behind it, and the last
one comes first by its order. -/
def gathering : List Definition :=
  [{ Definition.ofSource ⟨"Whole"⟩ "Whole" (.object .unit) with
      fields := [.announce, .autowire "parts" "" ⟨.many, ⟨"Part"⟩⟩,
        .autowire "late" "" ⟨.lazy, ⟨"Near"⟩⟩] },
    { Definition.ofSource ⟨"Near"⟩ "Near" (.object .unit) with
      exports := [⟨"Near"⟩, ⟨"Part"⟩], order := 2 },
    { Definition.ofSource ⟨"Far"⟩ "Far" (.object .unit) with
      exports := [⟨"Far"⟩, ⟨"Part"⟩], order := 1 }]

theorem refresh_lookup_gathering : ∃ d,
    refresh.exec (gathering.foldl register (ofStore .empty)) = (.ok (), d) ∧
      (Context.get "" ⟨.many, ⟨"Part"⟩⟩).exec d = (.ok (.list [.bean 2, .bean 1]), d) ∧
      (Context.get "" ⟨.lazy, ⟨"Near"⟩⟩).exec d =
        (.ok (.lazy (some ⟨1, "Near", ⟨"Near"⟩⟩)), d) := by
  have hok : (refresh.exec (gathering.foldl register (ofStore .empty))).1 = .ok () := by cbv
  have hbean : ((refresh.exec (gathering.foldl register (ofStore .empty))).2.bean? 0).map
      (fun bean => (bean.isAlive, bean.fields, bean.component.map (·.fields))) =
        some (true, [.announce, .autowire "parts" "" ⟨.many, ⟨"Part"⟩⟩,
          .autowire "late" "" ⟨.lazy, ⟨"Near"⟩⟩], some [("parts", .list [.bean 2, .bean 1]),
            ("late", .lazy (some ⟨1, "Near", ⟨"Near"⟩⟩))]) := by cbv
  obtain ⟨bean, hb, hbean⟩ := Option.map_eq_some_iff.mp hbean
  simp only [Prod.mk.injEq] at hbean
  obtain ⟨halive, hsteps, hfields⟩ := hbean
  obtain ⟨component, hcomponent, hfilled⟩ := refresh_lookup (fresh_register .empty gathering)
    (Prod.ext hok rfl) (.refl _) hb halive
  rw [hcomponent, Option.map_some, Option.some_inj] at hfields
  rw [hsteps, hfields] at hfilled
  have hnone : ∀ {receiver : Receiver} {type : TypeName},
      receiver.late? ≠ none → ¬ Injection.IsSurvey ⟨receiver, type⟩ := by
    rintro _ _ hr ⟨lazy, probe, rfl⟩
    exact hr rfl
  obtain ⟨-, hparts⟩ := (List.forall₂_cons.mp hfilled).1
  obtain ⟨-, hlate⟩ := (List.forall₂_cons.mp (List.forall₂_cons.mp hfilled).2).1
  exact ⟨_, Prod.ext hok rfl, hparts _ _ _ rfl (hnone (Option.some_ne_none _)),
    hlate _ _ _ rfl (hnone (Option.some_ne_none _))⟩

end Container
end BeanContainer
