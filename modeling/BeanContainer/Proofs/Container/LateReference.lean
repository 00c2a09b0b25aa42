/-
# Containers with a ring of beans

A container whose beans form a ring starts or not by the bean of the ring that is entered first, in
every order of registration (`Container.refresh_ring`). Once it has started, late references yield
their targets.

Key definitions: `Container.LateYield`.
Key theorems: `Session.lateYield`, `Registry.Reordered.ring_map`, `Container.refresh_ring`.
-/
import BeanContainer.Proofs.Container.Ring

namespace BeanContainer

open Relation (ReflTransGen)

variable {last other : Registry} {store : Store} {σ next : Equiv.Perm ℕ} {ring : Finset ℕ}

/-! ### Late fields of made beans -/

/-- A bean that is there shows its label through late references. -/
theorem Container.present?_of_present {c : Container} {i : ℕ} {bean : Bean}
    (hb : c.bean? i = some bean) (hp : c.Present i) : c.labels.present? i = some bean.label := by
  rw [present_iff_of_bean hb] at hp
  show ((c.bean? i).bind fun bean => if bean.component.isSome then some bean.label else none) = _
  rw [hb, Option.bind_some, if_pos hp]

/-- The late fields of the bean at `i` yield the beans that their tags pick: they refer to them,
and these are there. -/
def Container.LateYield (d : Container) (i : ℕ) : Prop :=
  ∀ bean, d.bean? i = some bean → ∀ name tag type parsed,
    .autowire name tag ⟨.lazy, type⟩ ∈ bean.fields → AutowireTag.parse tag = .ok parsed →
    ∀ j ∈ d.registry.picks ⟨type, parsed, true⟩, ∃ component target value,
      bean.component = some component ∧ (name, value) ∈ component.fields ∧
      d.bean? j = some target ∧ value = .lazy (some ⟨j, target.id, type⟩) ∧
      d.view value = .lazy (some target.id) (some target.label)

/-- **Late fields yield their targets** once all beans are there. -/
theorem Session.lateYield {c : Container} {i : ℕ} (hs : Session last store [] c)
    (hall : c.Complete last) (hi : i ∈ c.order) : c.LateYield i := by
  intro bean hb name tag type parsed hfield htag j hj
  obtain ⟨made, hmade, -, hcomponent, -⟩ := hs.made_of_mem hi
  rw [hb] at hmade
  cases hmade
  obtain ⟨component, hcomponent⟩ := Option.isSome_iff_exists.mp hcomponent
  obtain ⟨parsed', positions, htag', hselect, hlate⟩ :=
    Registry.late_of_filled (hs.filled_of_mem hi hb hcomponent) name tag type hfield
  rw [htag] at htag'
  cases htag'
  rw [hs.kept.alike.picks] at hj
  unfold Registry.picks at hj
  rw [hselect] at hj
  -- the bean that is picked takes part, so it is there by now
  obtain ⟨first, hfirst, hvalue⟩ := hlate j hj
  obtain ⟨other, hother, hinjectable, -⟩ :=
    Registry.mem_candidates.mp (Registry.select_subset hselect hj)
  rw [hfirst] at hother
  cases hother
  have hpresent := hall j first hfirst (Bool.and_eq_true_iff.mp hinjectable).1
  obtain ⟨target, htarget, hstanding⟩ := hs.bean_of_decided hfirst
  have hid : target.id = first.id := congrArg Definition.id (Bean.standing_eq hstanding).1
  refine ⟨component, target, _, hcomponent, hvalue, htarget, by rw [hid], ?_⟩
  unfold Container.view
  rw [Value.view, Container.present?_of_present htarget hpresent, hid]

/-! ### Rings in another order -/

namespace Registry

theorem Reordered.dependsOn (h : Reordered σ last other) {i j : ℕ} :
    other.DependsOn (σ i) (σ j) ↔ last.DependsOn i j := by
  unfold DependsOn
  rw [h i]
  simp only [h.mem_find]

/-- Beans form a ring in every order. -/
theorem Reordered.ring_map (h : Reordered σ last other) (hd : last.Decided) (hd' : other.Decided)
    (hr : last.Ring store ring next) :
    other.Ring store (ring.map σ.toEmbedding) (σ * next * σ⁻¹) := by
  have hnext : ∀ i, (σ * next * σ⁻¹) (σ i) = σ (next i) := fun i => by simp
  have hmem : ∀ {i}, i ∈ ring → σ i ∈ ring.map σ.toEmbedding :=
    fun hi => Finset.mem_map_of_mem _ hi
  refine ⟨?_, ?_, fun k hk => ?_, fun k hk => ?_, fun x rest hn hc hstrict => ?_⟩
  · rw [Finset.coe_map]
    exact hr.round.conj
  · obtain ⟨i, hi, j, hj, hne⟩ := hr.several
    exact ⟨σ i, hmem hi, σ j, hmem hj, σ.injective.ne hne⟩
  · obtain ⟨i, hi, rfl⟩ := Finset.mem_map.mp hk
    obtain ⟨lazy, hneed⟩ := hr.edge i hi
    exact ⟨lazy, (hnext i).symm ▸ (h.needs hd hd').mpr hneed⟩
  · obtain ⟨i, hi, rfl⟩ := Finset.mem_map.mp hk
    exact fun hdep => hr.injected i hi (h.dependsOn.mp (hnext i ▸ hdep))
  · have hpath : (x :: rest ++ [x]).map σ.symm =
        σ.symm x :: rest.map σ.symm ++ [σ.symm x] := by simp
    obtain ⟨a, b, hpair, hneed⟩ := hstrict
    have hpair' := hpair.map σ.symm
    rw [hpath] at hpair'
    have hn' : (σ.symm x :: rest.map σ.symm).Nodup := hn.map σ.symm.injective
    have hc' : (σ.symm x :: rest.map σ.symm ++ [σ.symm x]).IsChain (last.Edge store) := by
      rw [← hpath, List.isChain_map]
      exact hc.imp fun i j he => h.edge_symm hd hd' he
    obtain ⟨hx, hround⟩ := hr.only _ _ hn' hc' ⟨_, _, hpair', h.needs_symm hd hd' hneed⟩
    refine ⟨Finset.mem_map.mpr ⟨σ.symm x, hx, σ.apply_symm_apply x⟩, ?_⟩
    rw [← hpath, List.isChain_map] at hround
    refine hround.imp fun i j hij => ?_
    show σ (next (σ.symm i)) = j
    rw [hij, σ.apply_symm_apply]

end Registry

/-! ### The start of a container with a ring -/

namespace Container

/-- How the start of a container ends whose beans form a ring, by the bean of the ring that is
entered first. -/
theorem refresh_entered {c : Container} (hr : c.registry.resolve c.store = .ok last)
    (hs : last.Sound c.store) (hring : last.Ring c.store ring next) (hc : c.Fresh)
    (hentries : c.entries = []) (hn : (refresh.exec c).2.cancelled = false) :
    ∃ x ∈ ring, (refresh.exec c).2.entries.find? (· ∈ ring) = some x ∧
      (∀ r ∈ ring, (∀ i < r, ∀ j, ReflTransGen (last.Edge c.store) i j → j ∉ ring) → x = r) ∧
      ((∃ d, refresh.exec c = (.ok (), d) ∧ ∀ i ∈ ring, i ∈ d.order ∧ d.LateYield i) ∧
          ¬ last.Needs c.store false (next.symm x) x ∨
        ∃ fault d rest, refresh.exec c = (.error fault, d) ∧
          last.Needs c.store false (next.symm x) x ∧
          fault.root = .cycle (last.ids (x :: rest ++ [x])) ∧
          (x :: rest ++ [x]).IsChain fun a b => next a = b) := by
  have hstart := session_start hc hr
  have horder := hc.order
  rw [exec_refresh, hr] at hn ⊢
  dsimp only at hn ⊢
  have hentries' : entries { c with phase := .refreshing, registry := last } = [] := hentries
  have horder' : Container.order { c with phase := .refreshing, registry := last } = [] := horder
  generalize { c with phase := .refreshing, registry := last } = b at *
  have hn' : (wireBeans.exec b).2.cancelled = false := by
    rcases hx : wireBeans.exec b with ⟨fault | u, d⟩ <;> rw [hx] at hn <;> exact hn
  obtain ⟨x, hmem, hfind, hend⟩ := wireBeans_ring hstart hentries' horder' hs hring hn'
  refine ⟨x, hmem, ?_, fun r hmem' hbefore => ?_, ?_⟩
  · rw [← hfind]
    rcases wireBeans.exec b with ⟨fault | u, d⟩ <;> rfl
  · have hfirst := wireBeans_first hstart hentries' horder' hs hring hn' hmem' hbefore
    exact Option.some.inj (hfind.symm.trans hfirst)
  · rcases hend with ⟨⟨d, hx⟩, hlate⟩ | ⟨fault, d, rest, hx, hrest⟩
    · obtain ⟨hs', -, hall⟩ := wireBeans_ok hstart hx
      rw [hx]
      refine .inl ⟨⟨_, rfl, fun i hi => ?_⟩, hlate⟩
      obtain ⟨bean, hb, ha⟩ := hring.alive hi
      have hi' := hs'.present_iff.mp (hall i bean hb ha)
      exact ⟨hi', hs'.lateYield hall hi'⟩
    · rw [hx]
      exact .inr ⟨fault, d, rest, rfl, hrest⟩

/-- **A container with a ring starts when the ring is entered at a bean that is referred to late.**
Take beans that are resolved and sound and form a ring, in any order of registration, and a refresh
that is never cancelled. Let `x` be the bean of the ring that is entered first: the first registered
one, if no bean that is registered before it leads to the ring. If the bean before `x` in the ring
refers to it late only, the container starts, and the late fields of the ring yield their targets.
If it wants it at once, the root of the fault is the ring as a cycle, from `x` back to itself. -/
theorem refresh_ring {c c' : Container} (hr : c.registry.resolve c.store = .ok last)
    (hs : last.Sound c.store) (hring : last.Ring c.store ring next) (hc : c'.Fresh)
    (hentries : c'.entries = []) (hstore : c'.store = c.store)
    (h : Registry.Reordered σ c.registry c'.registry)
    (hn : (refresh.exec c').2.cancelled = false) :
    ∃ x ∈ ring, (refresh.exec c').2.entries.find? (σ.symm · ∈ ring) = some (σ x) ∧
      (∀ r ∈ ring, (∀ i j, σ i < σ r → ReflTransGen (last.Edge c.store) i j → j ∉ ring) →
        x = r) ∧
      (¬ last.Needs c.store false (next.symm x) x → ∃ d, refresh.exec c' = (.ok (), d) ∧
        ∀ i ∈ ring, σ i ∈ d.order ∧ d.LateYield (σ i)) ∧
      (last.Needs c.store false (next.symm x) x → ∃ fault d rest,
        refresh.exec c' = (.error fault, d) ∧
        fault.root = .cycle (last.ids (x :: rest ++ [x])) ∧
        (x :: rest ++ [x]).IsChain fun a b => next a = b) := by
  obtain ⟨last', hr', hσ⟩ := h.resolve_ok hr
  have hd : last.Decided := (Registry.resolve_ok hr).2.2.1
  have hd' : last'.Decided := (Registry.resolve_ok hr').2.2.1
  have hs' := hσ.sound hd hd' hs
  have hring' := hσ.ring_map hd hd' hring
  rw [← hstore] at hr' hs' hring'
  obtain ⟨y, hy, hfind, hfirst, hend⟩ := refresh_entered hr' hs' hring' hc hentries hn
  obtain ⟨x, hx, rfl⟩ := Finset.mem_map.mp hy
  rw [hstore] at hfirst hend
  have hpred : (σ * next * σ⁻¹).symm (σ x) = σ (next.symm x) := by
    rw [Equiv.symm_apply_eq]
    simp
  -- the bean that is entered first is `σ x`, and the one before it in the ring `σ (next.symm x)`
  have hneeds : last'.Needs c.store false ((σ * next * σ⁻¹).symm (σ x)) (σ x) ↔
      last.Needs c.store false (next.symm x) x := by
    rw [hpred]
    exact hσ.needs hd hd'
  refine ⟨x, hx, ?_, fun r hmem hbefore => ?_, fun hlate => ?_, fun hstrict => ?_⟩
  · simp only [Finset.mem_map_equiv] at hfind
    exact hfind
  · refine σ.injective (hfirst (σ r) (Finset.mem_map_of_mem _ hmem) fun i hi j hlead => ?_)
    rw [Finset.mem_map_equiv]
    refine hbefore (σ.symm i) (σ.symm j) (by rwa [σ.apply_symm_apply]) ?_
    exact hlead.lift σ.symm fun a b he => hσ.edge_symm hd hd' he
  · rcases hend with ⟨⟨d, hx, hyield⟩, -⟩ | ⟨fault, d, rest, -, hneed, -⟩
    · exact ⟨d, hx, fun i hi => hyield (σ i) (Finset.mem_map_of_mem _ hi)⟩
    · exact absurd (hneeds.mp hneed) hlate
  · rcases hend with ⟨-, hneed⟩ | ⟨fault, d, rest, hx, -, hroot, hround⟩
    · exact absurd (hneeds.mpr hstrict) hneed
    · have hpath : σ x :: rest ++ [σ x] = (x :: rest.map σ.symm ++ [x]).map σ := by simp
      refine ⟨fault, d, rest.map σ.symm, hx, ?_, ?_⟩
      · rw [hroot]
        show Fault.cycle (last'.ids (σ x :: rest ++ [σ x])) = _
        rw [hpath, hσ.ids_map]
      · change (σ x :: rest ++ [σ x]).IsChain _ at hround
        rw [hpath, List.isChain_map] at hround
        refine hround.imp fun i j hij => ?_
        simpa using hij

/-- A bean with a field for the bean of another type. -/
def holding (type wanted : String) (receiver : Receiver) : Definition :=
  { Definition.ofSource ⟨type⟩ type (.object .unit) with
    fields := [.autowire "other" "" ⟨receiver, ⟨wanted⟩⟩] }

/-- Two beans in a circle: the first one refers to the second one late, and is wanted by it at
once. -/
def pair : List Definition := [holding "A" "B" .lazy, holding "B" "A" .one]

/-- The two beans once they are decided. -/
def decidedPair : Registry :=
  ⟨pair.map fun definition => { Bean.ofDefinition definition with status := .resolved }⟩

theorem resolve_pair :
    (pair.foldl register (ofStore .empty)).registry.resolve .empty = .ok decidedPair := by
  cbv

theorem demand_holding (outlook : Outlook) (type wanted : String) {receiver : Receiver} :
    (holding type wanted receiver).demand outlook = Demand.nothing.and
      ((Injection.demand outlook .byType ⟨receiver, ⟨wanted⟩⟩).and .nothing) := by
  have htag : AutowireTag.parse "" = .ok .byType := by cbv
  have hstep : (FieldStep.autowire "other" "" ⟨receiver, ⟨wanted⟩⟩).demand outlook
      (holding type wanted receiver) = Injection.demand outlook .byType ⟨receiver, ⟨wanted⟩⟩ := by
    simp only [FieldStep.demand, htag]
  rw [← hstep]
  rfl

theorem needs_pair {lazy : Bool} {i j : ℕ} : decidedPair.Needs .empty lazy i j ↔
    (i = 0 ∧ j = 1 ∧ lazy = true) ∨ (i = 1 ∧ j = 0 ∧ lazy = false) := by
  have h0 : decidedPair.picks ⟨⟨"B"⟩, .byType, true⟩ = [1] := by cbv
  have h1 : decidedPair.picks ⟨⟨"A"⟩, .byType, false⟩ = [0] := by cbv
  have hd := demand_holding (decidedPair.outlook .empty)
  constructor
  · rintro ⟨bean, hb, -, ⟨-, selector, hm, -⟩ | ⟨want, hm, hl, hj⟩⟩
    · rcases i with _ | _ | i <;> cases hb <;> cases hm
    · rcases i with _ | _ | i <;> cases hb
      · change want ∈ ((holding "A" "B" .lazy).demand _).wants at hm
        rw [hd] at hm
        cases List.mem_singleton.mp hm
        rw [h0] at hj
        exact .inl ⟨rfl, List.mem_singleton.mp hj, hl.symm⟩
      · change want ∈ ((holding "B" "A" .one).demand _).wants at hm
        rw [hd] at hm
        cases List.mem_singleton.mp hm
        change j ∈ decidedPair.picks ⟨⟨"A"⟩, .byType, false⟩ at hj
        rw [h1] at hj
        exact .inr ⟨rfl, List.mem_singleton.mp hj, hl.symm⟩
  · rintro (⟨rfl, rfl, rfl⟩ | ⟨rfl, rfl, rfl⟩)
    · refine ⟨_, rfl, rfl, .inr ⟨⟨⟨"B"⟩, .byType, true⟩, ?_, rfl, h0 ▸ List.mem_cons_self⟩⟩
      show _ ∈ ((holding "A" "B" .lazy).demand _).wants
      rw [hd]
      exact List.mem_cons_self
    · refine ⟨_, rfl, rfl, .inr ⟨⟨⟨"A"⟩, .byType, false⟩, ?_, rfl, h1 ▸ List.mem_cons_self⟩⟩
      show _ ∈ ((holding "B" "A" .one).demand _).wants
      rw [hd]
      exact List.mem_cons_self

theorem decidedPair_sound : decidedPair.Sound .empty := by
  have hd := demand_holding (decidedPair.outlook .empty)
  refine ⟨?_, ?_, ?_⟩
  · rintro (_ | _ | i) bean hb - selector hm <;> cases hb <;> cases hm
  · rintro (_ | _ | i) bean hb - <;> cases hb
    · change ((holding "A" "B" .lazy).demand _).met
      rw [hd]
      exact ⟨trivial, ⟨1, by cbv, .inl rfl⟩, trivial⟩
    · change ((holding "B" "A" .one).demand _).met
      rw [hd]
      exact ⟨trivial, ⟨1, by cbv, rfl⟩, trivial⟩
  · rintro (_ | _ | i) bean hb - hook hm <;> cases hb <;> cases hm

/-- The two beans form a ring, which is all of the graph. -/
theorem decidedPair_ring : decidedPair.Ring .empty {0, 1} (Equiv.swap 0 1) := by
  have hedge : ∀ {i j : ℕ}, decidedPair.Edge .empty i j → i ∈ ({0, 1} : Finset ℕ) ∧
      Equiv.swap 0 1 i = j := by
    rintro i j ⟨lazy, hneed⟩
    rcases needs_pair.mp hneed with ⟨rfl, rfl, -⟩ | ⟨rfl, rfl, -⟩
    · exact ⟨by simp, Equiv.swap_apply_left 0 1⟩
    · exact ⟨by simp, Equiv.swap_apply_right 0 1⟩
  refine ⟨?_, ⟨0, by simp, 1, by simp, by decide⟩, fun i hi => ?_, fun i _ hdep => ?_,
    fun x rest _ hchain _ => ⟨?_, hchain.imp fun a b he => (hedge he).2⟩⟩
  · rw [Finset.coe_insert, Finset.coe_singleton]
    exact Equiv.Perm.isCycleOn_swap (by decide)
  · rcases Finset.mem_insert.mp hi with rfl | hi
    · exact ⟨true, needs_pair.mpr (.inl ⟨rfl, Equiv.swap_apply_left 0 1, rfl⟩)⟩
    · obtain rfl := Finset.mem_singleton.mp hi
      exact ⟨false, needs_pair.mpr (.inr ⟨rfl, Equiv.swap_apply_right 0 1, rfl⟩)⟩
  · obtain ⟨bean, hb, -, selector, hm, -⟩ := hdep
    rcases i with _ | _ | i <;> cases hb <;> cases hm
  · obtain ⟨b, more, hmore⟩ := List.exists_cons_of_ne_nil (List.concat_ne_nil x rest)
    rw [List.cons_append, hmore] at hchain
    exact (hedge (List.isChain_cons_cons.mp hchain).1).1

theorem refresh_ring_pair :
    (∃ d, refresh.exec (pair.reverse.foldl register (ofStore .empty)) = (.ok (), d) ∧
      ∀ i ∈ ({0, 1} : Finset ℕ), Equiv.swap 0 1 i ∈ d.order ∧ d.LateYield (Equiv.swap 0 1 i)) ∧
    ∃ fault d rest, refresh.exec (pair.foldl register (ofStore .empty)) = (.error fault, d) ∧
      fault.root = .cycle (decidedPair.ids (0 :: rest ++ [0])) ∧
      (0 :: rest ++ [0]).IsChain fun a b => Equiv.swap 0 1 a = b := by
  constructor
  · obtain ⟨x, -, -, hfirst, hlate, -⟩ := refresh_ring
      (c := pair.foldl register (ofStore .empty)) resolve_pair decidedPair_sound decidedPair_ring
      (fresh_register .empty pair.reverse) rfl rfl (Registry.reordered_swap _ _) (by cbv)
    have hx : x = 1 := by
      refine hfirst 1 (by simp) fun i j hi => ?_
      rw [Equiv.swap_apply_right] at hi
      exact absurd hi (Nat.not_lt_zero _)
    refine hlate fun hneed => ?_
    rw [hx, Equiv.symm_swap, Equiv.swap_apply_right] at hneed
    rcases needs_pair.mp hneed with ⟨-, -, hl⟩ | ⟨h0, -⟩
    · cases hl
    · cases h0
  · obtain ⟨x, -, -, hfirst, -, hstrict⟩ := refresh_ring
      (c := pair.foldl register (ofStore .empty)) resolve_pair decidedPair_sound decidedPair_ring
      (fresh_register .empty pair) rfl rfl (σ := Equiv.refl ℕ) (fun i => rfl) (by cbv)
    obtain rfl : x = 0 := hfirst 0 (by simp) fun i j hi => absurd hi (Nat.not_lt_zero _)
    refine hstrict (needs_pair.mpr (.inr ⟨?_, rfl, rfl⟩))
    rw [Equiv.symm_swap, Equiv.swap_apply_left]

/-- A ring with a late reference does not start in every order: the two beans start when the second
one is registered first, and they don't when the first one is. -/
theorem refresh_pair_stuck :
    decidedPair.Sound .empty ∧ decidedPair.Ring .empty {0, 1} (Equiv.swap 0 1) ∧
      decidedPair.Needs .empty true 0 1 ∧ decidedPair.Needs .empty false 1 0 ∧
      (pair.foldl register (ofStore .empty)).registry.resolve .empty = .ok decidedPair ∧
      (refresh.exec (pair.foldl register (ofStore .empty))).2.cancelled = false ∧
      (∃ d, refresh.exec (pair.reverse.foldl register (ofStore .empty)) = (.ok (), d)) ∧
      ¬ ∃ d, refresh.exec (pair.foldl register (ofStore .empty)) = (.ok (), d) := by
  have hfault : (refresh.exec (pair.foldl register (ofStore .empty))).1 =
      .error (.wiring ["A", "B"] (.cycle ["A", "B", "A"])) := by cbv
  have hstart : (refresh.exec (pair.reverse.foldl register (ofStore .empty))).1 = .ok () := by cbv
  refine ⟨decidedPair_sound, decidedPair_ring, needs_pair.mpr (.inl ⟨rfl, rfl, rfl⟩),
    needs_pair.mpr (.inr ⟨rfl, rfl, rfl⟩), resolve_pair, by cbv, ⟨_, Prod.ext hstart rfl⟩, ?_⟩
  rintro ⟨d, hd⟩
  rw [hd] at hfault
  cases hfault

end Container
end BeanContainer
