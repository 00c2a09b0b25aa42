/-
# Lists and maps of beans

The beans that a tag picks are taken as a list or, under their ids, as a map. Pairs with one id would
take the place of one another in the map. In a container that was refreshed this never happens: the
resolution lets only beans with different ids take part, nothing later changes an id, and no bean is
picked twice.

Key definitions: `Registry.Keyed`, `Registry.Matches`.
Key theorems: `Registry.keyed_of_select`, `Injection.matches_fill`, `Container.refresh_keyed`.
-/
import BeanContainer.Proofs.Container.Lookup
import BeanContainer.Proofs.Entries

namespace BeanContainer

variable {registry other : Registry} {c d e : Container} {type : TypeName}
  {positions : List ℕ} {entries : List (String × Value)}

namespace Registry

/-- The beans that take part have different ids. -/
def Distinct (registry : Registry) : Prop :=
  (registry.ids (registry.satisfying (·.isAlive))).Nodup

theorem Alike.distinct (h : registry.Alike other) (hd : registry.Distinct) : other.Distinct := by
  have halive : other.satisfying (·.isAlive) = registry.satisfying (·.isAlive) :=
    h.satisfying (fun standing => standing.2.1) rfl
  unfold Distinct
  rwa [halive, h.ids]

/-- A bean that takes part is known by its id. -/
theorem Distinct.eq_of_id (h : registry.Distinct) {i j : ℕ} {bean bean' : Bean}
    (hi : registry.beans[i]? = some bean) (ha : bean.isAlive = true)
    (hj : registry.beans[j]? = some bean') (ha' : bean'.isAlive = true) (he : bean.id = bean'.id) :
    i = j := by
  by_contra hne
  have hmi : i ∈ registry.satisfying (·.isAlive) := mem_satisfying.mpr ⟨bean, hi, ha⟩
  have hmj : j ∈ registry.satisfying (·.isAlive) := mem_satisfying.mpr ⟨bean', hj, ha'⟩
  have hsymm : Std.Symm fun a b : ℕ => ∀ id, registry.beans[a]?.map (·.id) = some id →
      ∀ id', registry.beans[b]?.map (·.id) = some id' → id ≠ id' :=
    ⟨fun _ _ hab id hid id' hid' heq => hab id' hid' id hid heq.symm⟩
  have hpair := (List.pairwise_filterMap.mp h).forall hmi hmj hne
  exact hpair bean.id (by rw [hi]; rfl) bean'.id (by rw [hj]; rfl) he

/-- The entries hold the beans at these positions under their ids, each of them once. -/
structure Keyed (registry : Registry) (positions : List ℕ) (entries : List (String × Value)) :
    Prop where
  nodup : (entries.map (·.1)).Nodup
  length : entries.length = positions.length
  mem : ∀ id value, (id, value) ∈ entries ↔ ∃ i ∈ positions, ∃ bean,
    registry.beans[i]? = some bean ∧ bean.id = id ∧ value = .bean i

/-- The entry of a bean in a map. -/
def entry (handle : Handle) : String × Value := (handle.id, .bean handle.bean)

/-- **No selected bean is lost in a map.** -/
theorem keyed_of_select {tag : AutowireTag} (hd : registry.Distinct)
    (hs : registry.select type tag = .ok positions) :
    registry.Keyed positions (Entries.ofPairs ((registry.handles type positions).map entry)) := by
  obtain ⟨hsubset, hpositions⟩ := select_sound hs
  have hbeans := handles_bean hsubset
  have hids : (((registry.handles type positions).map entry).map (·.1)).Nodup := by
    rw [List.map_map]
    rw [← hbeans] at hpositions
    refine List.pairwise_map.mpr ((List.pairwise_map.mp hpositions).imp_of_mem ?_)
    intro handle handle' hm hm' hne he
    obtain ⟨⟨bean, hb, ha, hid, -⟩, -⟩ := names_of_select hs hm
    obtain ⟨⟨bean', hb', ha', hid', -⟩, -⟩ := names_of_select hs hm'
    exact hne (hd.eq_of_id hb ha hb' ha' (hid.trans (Eq.trans he hid'.symm)))
  have hperm := Entries.ofPairs_perm hids
  refine ⟨(hperm.map _).nodup_iff.mpr hids, ?_, fun id value => ?_⟩
  · rw [hperm.length_eq, List.length_map, ← List.length_map (·.bean), hbeans]
  · rw [hperm.mem_iff, List.mem_map]
    constructor
    · rintro ⟨handle, hm, he⟩
      cases he
      obtain ⟨⟨bean, hb, -, hid, -⟩, -⟩ := names_of_select hs hm
      exact ⟨handle.bean, hbeans ▸ List.mem_map_of_mem hm, bean, hb, hid, rfl⟩
    · rintro ⟨i, hi, bean, hb, rfl, rfl⟩
      rw [← hbeans] at hi
      obtain ⟨handle, hm, rfl⟩ := List.mem_map.mp hi
      obtain ⟨⟨bean', hb', -, hid, -⟩, -⟩ := names_of_select hs hm
      rw [hb] at hb'
      cases hb'
      exact ⟨handle, hm, Prod.ext hid.symm rfl⟩

/-- What is taken as a list, and what is taken as a map: the same beans, or the same fault. -/
inductive Matches (registry : Registry) : Except Fault Value → Except Fault Value → Prop
  | refused (fault : Fault) : Matches registry (.error fault) (.error fault)
  | beans {positions : List ℕ} {entries : List (String × Value)} :
      registry.Keyed positions entries →
      Matches registry (.ok (.list (positions.map .bean))) (.ok (.dict entries))

theorem Matches.of_list {value : Value} {outcome : Except Fault Value}
    (h : registry.Matches (.ok value) outcome) : ∃ positions entries,
      value = .list (positions.map .bean) ∧ outcome = .ok (.dict entries) ∧
        registry.Keyed positions entries := by
  cases h with
  | beans hkeyed => exact ⟨_, _, rfl, rfl, hkeyed⟩

end Registry

/-! ### Lookups -/

/-- Where all beans are there, a list and a map that are asked for with one tag match. -/
theorem Injection.matches_fill (hd : e.registry.Distinct)
    (hall : ∀ handle, e.registry.Names handle → e.Present handle.bean) (tag : AutowireTag)
    (type : TypeName) :
    e.registry.Matches ((fill Context.live tag ⟨.many, type⟩).exec e).1
      ((fill Context.live tag ⟨.byId, type⟩).exec e).1 := by
  have hlive := Context.exec_live type tag false e
  rcases hs : e.registry.select type tag with reason | positions
  · rw [hs] at hlive
    have hmany := gives_fill_error (show Receiver.many.late? = some false from rfl) hlive
    have hdict := gives_fill_error (show Receiver.byId.late? = some false from rfl) hlive
    rw [hmany, hdict]
    exact .refused _
  · rw [hs] at hlive
    obtain ⟨outcome, hx, ho⟩ := gives_several hlive
    rcases outcome with fault | given
    · have hmany : (fill Context.live tag ⟨.many, type⟩).exec e = (.error fault, e) :=
        Run.exec_bind_error hx
      have hdict : (fill Context.live tag ⟨.byId, type⟩).exec e = (.error fault, e) :=
        Run.exec_bind_error hx
      rw [hmany, hdict]
      exact .refused _
    · obtain rfl := Handle.eq_of_all ho.symm
      have hone : ∀ handle ∈ e.registry.handles type positions,
          handle.require.exec e = (.ok (.bean handle.bean), e) := fun handle hm =>
        Handle.exec_require (hall handle (Registry.names_of_select hs hm).1)
      have hmany : (fill Context.live tag ⟨.many, type⟩).exec e =
          (.ok (.list (positions.map .bean)), e) := by
        rw [← Registry.handles_bean (Registry.select_subset hs), List.map_map]
        exact (Run.exec_bind_ok hx).trans (Run.exec_bind_ok (Run.exec_mapM_map hone))
      have hdict : (fill Context.live tag ⟨.byId, type⟩).exec e =
          (.ok (.dict (Entries.ofPairs ((e.registry.handles type positions).map Registry.entry))),
            e) := by
        have hentry : ∀ handle ∈ e.registry.handles type positions,
            Run.exec (do return (handle.id, ← handle.require)) e =
              (.ok (Registry.entry handle), e) := fun handle hm => Run.exec_bind_ok (hone handle hm)
        exact (Run.exec_bind_ok hx).trans (Run.exec_bind_ok (Run.exec_mapM_map hentry))
      rw [hmany, hdict]
      exact .beans (Registry.keyed_of_select hd hs)

namespace Container

/-- A container that serves gives the same beans as a list and as a map. -/
theorem Serves.matches {last : Registry} (he : e.Serves last) (hd : last.Distinct) (tag : String)
    (type : TypeName) :
    e.registry.Matches ((Context.get tag ⟨.many, type⟩).exec e).1
      ((Context.get tag ⟨.byId, type⟩).exec e).1 := by
  have hall : ∀ handle, e.registry.Names handle → e.Present handle.bean := fun handle hn =>
    he.present handle (Registry.Alike.names (Eq.symm he.alike) hn)
  rw [Context.exec_get he.running, Context.exec_get he.running]
  rcases AutowireTag.parse tag with fault | parsed
  · exact .refused fault
  · exact Injection.matches_fill (he.alike.distinct hd) hall parsed type

/-- **Maps and lists of beans agree.** After a refresh that succeeds, and later on as well, a list
and a map that the context is asked for with the same tag and type are refused with the same fault;
or the map has as many entries as the list has beans, and they are the beans of the list under their
ids. And the list or map that a field was filled with during the refresh matches the map or list that
the context gives. -/
theorem refresh_keyed (hc : c.Fresh) (hx : refresh.exec c = (.ok (), d)) (ha : d.Aside e) :
    (∀ tag type, e.registry.Matches ((Context.get tag ⟨.many, type⟩).exec e).1
      ((Context.get tag ⟨.byId, type⟩).exec e).1) ∧
    ∀ i bean, d.bean? i = some bean → bean.isAlive = true →
      ∃ component, bean.component = some component ∧
        FieldStep.Filled (fun tag injection value =>
          (injection.receiver = .many → e.registry.Matches (.ok value)
            ((Context.get tag ⟨.byId, injection.type⟩).exec e).1) ∧
          (injection.receiver = .byId → e.registry.Matches
            ((Context.get tag ⟨.many, injection.type⟩).exec e).1 (.ok value)))
          bean.fields component.fields := by
  obtain ⟨last, done, hr, -, hs, hp, -, -, rfl⟩ := refresh_course hc hx
  have he : e.Serves last := hs.serves hp ha
  have hmatches := he.matches (Registry.resolve_ok hr).2.2.2
  refine ⟨hmatches, fun i bean hb halive => ?_⟩
  change done.bean? i = some bean at hb
  obtain ⟨component, hcomponent, hfilled⟩ := hs.filled_served hp hb halive he
  refine ⟨component, hcomponent, hfilled.imp fun tag ⟨receiver, type⟩ value hget => ⟨?_, ?_⟩⟩
  · rintro rfl
    have hm := hmatches tag type
    rwa [hget (by rintro ⟨-, -, ⟨⟩⟩)] at hm
  · rintro rfl
    have hm := hmatches tag type
    rwa [hget (by rintro ⟨-, -, ⟨⟩⟩)] at hm

/-- Parts of a whole, which takes them under their ids. Two parts have one id, but only one of these
takes part. -/
def parts : List Definition :=
  [{ Definition.ofSource ⟨"Near"⟩ "Near" (.object .unit) with
      id := "part", exports := [⟨"Part"⟩], order := 2 },
    { (Definition.ofSource ⟨"Lost"⟩ "Lost" (.object .unit)).on (.not (.onMissingProperty "lost")) with
      id := "part", exports := [⟨"Part"⟩] },
    { Definition.ofSource ⟨"Far"⟩ "Far" (.object .unit) with exports := [⟨"Part"⟩], order := 1 },
    { Definition.ofSource ⟨"Whole"⟩ "Whole" (.object .unit) with
      fields := [.autowire "parts" "" ⟨.byId, ⟨"Part"⟩⟩] }]

theorem refresh_keyed_parts : ∃ d entries,
    refresh.exec (parts.foldl register (ofStore .empty)) = (.ok (), d) ∧
      ((Context.get "" ⟨.many, ⟨"Part"⟩⟩).exec d).1 = .ok (.list [.bean 2, .bean 0]) ∧
      ((Context.get "" ⟨.byId, ⟨"Part"⟩⟩).exec d).1 = .ok (.dict entries) ∧
      entries.length = 2 ∧ ("part", .bean 0) ∈ entries ∧ ("Far", .bean 2) ∈ entries := by
  have hok : (refresh.exec (parts.foldl register (ofStore .empty))).1 = .ok () := by cbv
  have hlist : ((Context.get "" ⟨.many, ⟨"Part"⟩⟩).exec
      (refresh.exec (parts.foldl register (ofStore .empty))).2).1 =
        .ok (.list [.bean 2, .bean 0]) := by cbv
  have hids : (refresh.exec (parts.foldl register (ofStore .empty))).2.registry.beans.map (·.id) =
      ["part", "part", "Far", "Whole"] := by cbv
  have hmatches := (refresh_keyed (fresh_register .empty parts) (Prod.ext hok rfl) (.refl _)).1 ""
    ⟨"Part"⟩
  rw [hlist] at hmatches
  obtain ⟨positions, entries, hpositions, hdict, hkeyed⟩ := hmatches.of_list
  obtain rfl : positions = [2, 0] := by
    have h := hpositions.symm
    simpa [List.map_eq_cons_iff] using h
  have hbean : ∀ i id, ["part", "part", "Far", "Whole"][i]? = some id → ∃ bean : Bean,
      (refresh.exec (parts.foldl register (ofStore .empty))).2.registry.beans[i]? = some bean ∧
        bean.id = id := fun i id hi => by
    rw [← hids, List.getElem?_map, Option.map_eq_some_iff] at hi
    exact hi
  obtain ⟨near, hnear, hnearId⟩ := hbean 0 "part" rfl
  obtain ⟨far, hfar, hfarId⟩ := hbean 2 "Far" rfl
  exact ⟨_, entries, Prod.ext hok rfl, hlist, hdict, hkeyed.length,
    (hkeyed.mem _ _).mpr ⟨0, by simp, near, hnear, hnearId, rfl⟩,
    (hkeyed.mem _ _).mpr ⟨2, by simp, far, hfar, hfarId, rfl⟩⟩

end Container
end BeanContainer
