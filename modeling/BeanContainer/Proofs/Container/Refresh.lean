/-
# The start of a container

`Container.refresh` decides the beans, makes them one after the other, each with an empty stack, and
freezes the container. What it does rests on the session that it runs in (`Session`), and why it
fails on the graph of needs (`Wiring.Failed.stops`).

Key definitions: `Container.Fresh`.
Key theorems: `Container.session_start`, `Container.wireRoots_ok`, `Container.refresh_ok`,
`Container.refresh_error`, `Container.refresh_order`.
-/
import BeanContainer.Proofs.Container.Wiring
import BeanContainer.Proofs.Registry.Resolution
import Mathlib

namespace BeanContainer

/-- The beans that a resolution gives are decided, and none was made. -/
theorem Registry.ready_of_resolve {store : Store} {definitions : List Definition}
    {last : Registry} (h : resolve store (ofDefinitions definitions) = .ok last) : last.Ready := by
  obtain ⟨-, hs, hd, -⟩ := resolve_ok h
  have hsettled := settled_of_settle hs
  have hfirst : ∀ (i : ℕ) (bean : Bean), last.beans[i]? = some bean →
      ∃ definition, (ofDefinitions definitions).beans[i]? = some (Bean.ofDefinition definition) ∧
        (Bean.ofDefinition definition).Settles bean := by
    intro i bean hb
    obtain ⟨first, hf, hset⟩ := (ahead_of_reaches hsettled.reaches).before (i := i) hb
    have hf' := hf
    unfold ofDefinitions at hf'
    rw [List.getElem?_map, Option.map_eq_some_iff] at hf'
    obtain ⟨definition, -, rfl⟩ := hf'
    exact ⟨definition, hf, hset⟩
  refine ⟨fun i bean hb => ?_, fun i bean hb => ?_⟩
  · obtain ⟨definition, hf, -⟩ := hfirst i bean hb
    obtain ⟨outcome, -, hstatus⟩ := hsettled.status_eq hf rfl hb
    have hdecided := hd i bean hb
    rw [hstatus] at hdecided ⊢
    cases outcome with
    | matched => exact .inl rfl
    | unmatched => exact .inr rfl
    | pending ids => exact absurd rfl hdecided
  · obtain ⟨definition, -, hset⟩ := hfirst i bean hb
    rw [hset.same]
    exact ⟨rfl, rfl⟩

namespace Container

open Relation (ReflTransGen)

variable {c d : Container} {last : Registry} {store : Store} {fault : Fault}

/-- A container before its refresh: beans are registered, and none of their code was called. -/
structure Fresh (c : Container) : Prop where
  registered : ∃ definitions, c.registry = Registry.ofDefinitions definitions
  order : c.order = []
  calls : ∀ stage i, c.calls stage i = []

/-- A container in which beans are registered one after the other is fresh. -/
theorem fresh_register (store : Store) (definitions : List Definition) :
    (definitions.foldl register (ofStore store)).Fresh := by
  have h : ∀ c : Container, definitions.foldl register c =
      { c with registry := definitions.foldl Registry.register c.registry } := by
    induction definitions with
    | nil => exact fun _ => rfl
    | cons definition rest ih => exact fun c => ih (c.register definition)
  rw [h, Registry.foldl_register]
  exact ⟨⟨definitions, rfl⟩, rfl, fun _ _ => rfl⟩

/-- The making of decided beans begins with a session. -/
theorem session_start (hc : c.Fresh) (hr : c.registry.resolve c.store = .ok last) :
    Session last c.store [] { c with phase := .refreshing, registry := last } where
  ready := by
    obtain ⟨definitions, hd⟩ := hc.registered
    rw [hd] at hr
    exact Registry.ready_of_resolve hr
  kept := ⟨rfl, rfl, .refl last⟩
  fits i bean hb := by
    obtain ⟨definitions, hd⟩ := hc.registered
    rw [hd] at hr
    have ho : i ∉ c.order := by
      rw [hc.order]
      exact List.not_mem_nil
    rcases (Registry.ready_of_resolve hr).status i bean hb with hs | hs
    · exact .waiting hb hs ho fun stage => hc.calls stage i
    · exact .dropped hb hs List.not_mem_nil ho
  stack_nodup := List.nodup_nil
  stack_lt i hi := nomatch hi
  order_nodup := by
    rw [hc.order]
    exact List.nodup_nil
  order_lt i hi := by
    rw [hc.order] at hi
    cases hi
  sorted front i back he := by
    rw [hc.order] at he
    cases front <;> cases he
  entered := List.nil_sublist _
  closed i hi := by
    rw [hc.order] at hi
    cases hi
  framed front i back he := by
    rw [hc.order] at he
    cases front <;> cases he

/-! ### All beans -/

theorem exec_wireBeans (hs : Session last store [] c) : wireBeans.exec c =
    Run.exec ((List.range last.beans.length).forM (Wiring.wireRoot last.beans.length)) c := by
  unfold wireBeans
  rw [Run.exec_get_bind]
  unfold Registry.indices
  rw [hs.kept.alike.length]
  dsimp only
  rw [List.length_range]

theorem exec_wireRoot (hs : Session last store [] c) {i : ℕ} {bean : Bean}
    (hb : last.beans[i]? = some bean) (room : ℕ) : (Wiring.wireRoot room i).exec c =
      if bean.isAlive = true then (Wiring.wire room [] false i).exec c else (.ok (), c) := by
  obtain ⟨now, hn, hst⟩ := hs.bean_of_decided hb
  have ha := (Bean.standing_eq hst).2.1
  unfold Wiring.wireRoot
  rw [Run.exec_withBean _ hn, ha]
  split <;> rfl

theorem wireRoot_ok (hs : Session last store [] c) {i : ℕ} (hi : i < last.beans.length)
    (hx : (Wiring.wireRoot last.beans.length i).exec c = (.ok (), d)) :
    Session last store [] d ∧ Grows [] [] c d ∧
      (∀ bean, last.beans[i]? = some bean → bean.isAlive = true → d.Present i) ∧
      (∀ k ∈ d.order, k ∈ c.order ∨ ReflTransGen (last.Edge store) i k) ∧ Opens i c d := by
  have hb : last.beans[i]? = some last.beans[i] := List.getElem?_eq_getElem hi
  rw [exec_wireRoot hs hb] at hx
  split at hx
  · obtain ⟨hs', hg, hv, ho⟩ :=
      Wiring.wire_ok last.beans.length (Nat.le_add_right _ _) hi hs hx
    refine ⟨hs', hg, fun _ _ _ => (hv.grants false i ⟨rfl, rfl⟩).present, fun k hk => ?_, ho⟩
    refine (hv.only k hk).imp_right ?_
    rintro ⟨lazy, j, ⟨-, rfl⟩, hlead⟩
    exact hlead
  · next ha =>
    cases hx
    refine ⟨hs, .refl _ _, fun bean hbean halive => ?_, fun k hk => .inl hk, .refl _ _⟩
    rw [hb] at hbean
    cases hbean
    exact absurd halive ha

theorem wireRoot_error (hs : Session last store [] c) {i : ℕ} (hi : i < last.beans.length)
    (hx : (Wiring.wireRoot last.beans.length i).exec c = (.error fault, d)) :
    (∃ bean, last.beans[i]? = some bean ∧ bean.isAlive = true) ∧
      Wiring.Failed last store [] i c fault d := by
  have hb : last.beans[i]? = some last.beans[i] := List.getElem?_eq_getElem hi
  rw [exec_wireRoot hs hb] at hx
  split at hx
  · next ha =>
    refine ⟨⟨_, hb, ha⟩, Wiring.wire_error last.beans.length (Nat.le_add_right _ _) hs ?_ hx⟩
    exact ⟨List.isChain_nil, (fun _ h => nomatch h), _, hb, ha⟩
  · cases hx

/-- Beans that are made one after the other are all there, and besides them those that they lead
to. -/
theorem wireRoots_ok {roots : List ℕ} (hroots : ∀ i ∈ roots, i < last.beans.length)
    (hs : Session last store [] c)
    (hx : Run.exec (roots.forM (Wiring.wireRoot last.beans.length)) c = (.ok ⟨⟩, d)) :
    Session last store [] d ∧ Grows [] [] c d ∧
      (∀ i ∈ roots, ∀ bean, last.beans[i]? = some bean → bean.isAlive = true → d.Present i) ∧
      ∀ k ∈ d.order, k ∈ c.order ∨ ∃ i ∈ roots, ReflTransGen (last.Edge store) i k := by
  induction roots generalizing c with
  | nil =>
    cases hx
    exact ⟨hs, .refl _ _, (fun i hi => nomatch hi), fun k hk => .inl hk⟩
  | cons i rest ih =>
    rw [Run.forM_cons] at hx
    obtain ⟨_, c1, hone, hx⟩ := Run.bind_ok_inv hx
    obtain ⟨hs1, hg1, hp1, hlead1, -⟩ := wireRoot_ok hs (hroots i List.mem_cons_self) hone
    obtain ⟨hs2, hg2, hp2, hlead2⟩ :=
      ih (fun j hj => hroots j (List.mem_cons_of_mem i hj)) hs1 hx
    refine ⟨hs2, hg1.trans hg2, fun j hj bean hb ha => ?_, fun k hk => ?_⟩
    · rcases List.mem_cons.mp hj with rfl | hj
      · exact hs1.present_mono hs2 hg2.order.subset (hp1 bean hb ha)
      · exact hp2 j hj bean hb ha
    · rcases hlead2 k hk with hk | ⟨j, hj, hlead⟩
      · exact (hlead1 k hk).imp_right fun hlead => ⟨i, List.mem_cons_self, hlead⟩
      · exact .inr ⟨j, List.mem_cons_of_mem i hj, hlead⟩

/-- Beans that are made one after the other are made up to the first one that is refused. -/
theorem wireRoots_error {roots : List ℕ} (hroots : ∀ i ∈ roots, i < last.beans.length)
    (hs : Session last store [] c)
    (hx : Run.exec (roots.forM (Wiring.wireRoot last.beans.length)) c = (.error fault, d)) :
    ∃ front i back c', roots = front ++ i :: back ∧ Session last store [] c' ∧ Grows [] [] c c' ∧
      (∀ j ∈ front, ∀ bean, last.beans[j]? = some bean → bean.isAlive = true → c'.Present j) ∧
      (∃ bean, last.beans[i]? = some bean ∧ bean.isAlive = true) ∧
      Wiring.Failed last store [] i c' fault d := by
  obtain ⟨front, i, back, c', rfl, hfront, hone⟩ := Run.forM_error hx
  obtain ⟨hs', hg, hp, -⟩ :=
    wireRoots_ok (fun j hj => hroots j (List.mem_append_left _ hj)) hs hfront
  have hi : i < last.beans.length := hroots i (by simp)
  exact ⟨front, i, back, c', rfl, hs', hg, hp, wireRoot_error hs' hi hone⟩

theorem wireRoots_stops {roots : List ℕ} (hroots : ∀ i ∈ roots, i < last.beans.length)
    (hs : Session last store [] c)
    (hx : Run.exec (roots.forM (Wiring.wireRoot last.beans.length)) c = (.error fault, d)) :
    ∃ i ∈ roots, ∃ c', Session last store [] c' ∧ Grows [] [] c c' ∧
      Wiring.Stops last store [] i c' fault d := by
  obtain ⟨front, i, back, c', rfl, hs', hg, -, -, hfailed⟩ := wireRoots_error hroots hs hx
  exact ⟨i, by simp, c', hs', hg, hfailed.stops⟩

theorem wireBeans_ok (hs : Session last store [] c) (hx : wireBeans.exec c = (.ok (), d)) :
    Session last store [] d ∧ Grows [] [] c d ∧ d.Complete last := by
  rw [exec_wireBeans hs] at hx
  obtain ⟨hs', hg, hp, -⟩ := wireRoots_ok (fun i => List.mem_range.mp) hs hx
  refine ⟨hs', hg, fun i bean hb => hp i ?_ bean hb⟩
  exact List.mem_range.mpr (List.getElem?_eq_some_iff.mp hb).1

theorem wireBeans_stops (hs : Session last store [] c)
    (hx : wireBeans.exec c = (.error fault, d)) :
    ∃ i c', Session last store [] c' ∧ Grows [] [] c c' ∧
      Wiring.Stops last store [] i c' fault d := by
  rw [exec_wireBeans hs] at hx
  obtain ⟨i, -, h⟩ := wireRoots_stops (fun i => List.mem_range.mp) hs hx
  exact ⟨i, h⟩

/-! ### The refresh -/

/-- The start of a container, with the making of its beans left open. -/
def startWith (make : Run Unit) : Run Unit := do
  modify fun container => { container with phase := .refreshing }
  resolveBeans
  make
  modify fun container => { container with phase := .running }

theorem exec_startWith (make : Run Unit) (c : Container) : (startWith make).exec c =
    match c.registry.resolve c.store with
    | .error fault => (.error fault, { c with phase := .refreshing })
    | .ok last =>
      match make.exec { c with phase := .refreshing, registry := last } with
      | (.ok _, d) => (.ok (), { d with phase := .running })
      | (.error fault, d) => (.error fault, d) := by
  unfold startWith resolveBeans
  rw [Run.exec_modify_bind, Run.exec_bind, Run.exec_get_bind, Run.exec_bind, Run.exec_ofExcept]
  rcases c.registry.resolve c.store with fault | last
  · rfl
  · show Run.exec (make >>= _) { c with phase := .refreshing, registry := last } = _
    rw [Run.exec_bind]
    dsimp only
    rcases make.exec { c with phase := .refreshing, registry := last } with ⟨fault | u, d⟩ <;> rfl

theorem exec_refresh (c : Container) : refresh.exec c =
    match c.registry.resolve c.store with
    | .error fault => (.error fault, { c with phase := .refreshing })
    | .ok last =>
      match wireBeans.exec { c with phase := .refreshing, registry := last } with
      | (.ok _, d) => (.ok (), { d with phase := .running })
      | (.error fault, d) => (.error fault, d) :=
  exec_startWith wireBeans c

/-- A refresh that succeeds resolves the beans and makes them. -/
theorem exec_refresh_ok (hx : refresh.exec c = (.ok (), d)) :
    ∃ last done, c.registry.resolve c.store = .ok last ∧
      wireBeans.exec { c with phase := .refreshing, registry := last } = (.ok (), done) ∧
      d = { done with phase := .running } := by
  rw [exec_refresh] at hx
  rcases hr : c.registry.resolve c.store with fault | last
  · rw [hr] at hx
    cases hx
  · rw [hr] at hx
    dsimp only at hx
    rcases hw : wireBeans.exec { c with phase := .refreshing, registry := last }
      with ⟨fault | u, done⟩
    · rw [hw] at hx
      cases hx
    · rw [hw] at hx
      cases hx
      exact ⟨last, done, rfl, hw, rfl⟩

theorem refresh_ok (hc : c.Fresh) (hx : refresh.exec c = (.ok (), d)) :
    ∃ last done, c.registry.resolve c.store = .ok last ∧ Session last c.store [] done ∧
      done.Complete last ∧ d = { done with phase := .running } := by
  obtain ⟨last, done, hr, hw, hd⟩ := exec_refresh_ok hx
  obtain ⟨hs, -, hp⟩ := wireBeans_ok (session_start hc hr) hw
  exact ⟨last, done, hr, hs, hp, hd⟩

/-- A refresh of beans that are resolved fails as these are made. -/
theorem exec_refresh_error (hr : c.registry.resolve c.store = .ok last)
    (hx : refresh.exec c = (.error fault, d)) :
    wireBeans.exec { c with phase := .refreshing, registry := last } = (.error fault, d) := by
  rw [exec_refresh, hr] at hx
  dsimp only at hx
  rcases hw : wireBeans.exec { c with phase := .refreshing, registry := last }
    with ⟨fault' | u, done⟩ <;> rw [hw] at hx <;> cases hx
  rfl

theorem refresh_error (hc : c.Fresh) (hr : c.registry.resolve c.store = .ok last)
    (hx : refresh.exec c = (.error fault, d)) : Wiring.Blames last c.store fault d := by
  obtain ⟨i, middle, -, -, hstops⟩ :=
    wireBeans_stops (session_start hc hr) (exec_refresh_error hr hx)
  exact hstops.blames

/-- **The order of a started container is complete, and needs come first.** It holds the beans that
take part and no other one, each once. They are initialized and there; the constructor of each was
called at most once, and its init hooks once each in their order. What a bean needs at once, because
it depends on it or is injected with it, stands before it. -/
theorem refresh_order (hc : c.Fresh) (hx : refresh.exec c = (.ok (), d)) :
    ∃ last, c.registry.resolve c.store = .ok last ∧ d.order.Nodup ∧
      (∀ i, i ∈ d.order ↔ ∃ bean, last.beans[i]? = some bean ∧ bean.isAlive = true) ∧
      (∀ i ∈ d.order, ∃ first bean, last.beans[i]? = some first ∧ d.bean? i = some bean ∧
        bean.toDefinition = first.toDefinition ∧ bean.status = .initialized ∧
        bean.component.isSome = true ∧ (d.calls .construct i).length ≤ 1 ∧
        d.calls .init i = List.range first.init.length) ∧
      ∀ front i back, d.order = front ++ i :: back →
        ∀ j, last.Needs c.store false i j → j ∈ front := by
  obtain ⟨last, done, hr, hs, hp, rfl⟩ := refresh_ok hc hx
  have hmade : ∀ i ∈ done.order, ∃ first bean, last.beans[i]? = some first ∧
      done.bean? i = some bean ∧ bean.standing = first.standing ∧ bean.status = .initialized ∧
      bean.component.isSome = true ∧ (done.calls .construct i).length ≤ 1 ∧
      done.calls .init i = List.range bean.init.length := by
    intro i hi
    obtain ⟨bean, hb, hrest⟩ := hs.made_of_mem hi
    obtain ⟨first, hf, hst⟩ := hs.kept.alike.bean hb
    exact ⟨first, bean, hf, hb, hst, hrest⟩
  refine ⟨last, hr, hs.order_nodup, fun i => ⟨fun hi => ?_, ?_⟩, fun i hi => ?_, hs.sorted⟩
  · obtain ⟨first, bean, hf, -, hst, hi, -⟩ := hmade i hi
    refine ⟨first, hf, ?_⟩
    rw [← (Bean.standing_eq hst).2.1]
    unfold Bean.isAlive
    rw [hi]
    rfl
  · rintro ⟨bean, hb, ha⟩
    exact hs.present_iff.mp (hp i bean hb ha)
  · obtain ⟨first, bean, hf, hb, hst, hrest⟩ := hmade i hi
    have hd := (Bean.standing_eq hst).1
    rw [hd] at hrest
    exact ⟨first, bean, hf, hb, hd, hrest⟩

/-- A bean that is constructed with the bean of another type. -/
def constructedWith (type wanted : String) (receiver : Receiver) : Definition :=
  .ofSource ⟨type⟩ type (.constructor
    ⟨type, [⟨.injected ⟨receiver, ⟨wanted⟩⟩, false⟩], ⟨type⟩, fun _ => .ok .unit⟩
    ⟨[.bean .byType], []⟩ [])

/-- Three beans: the first one depends on the third one and is constructed with the second one,
which takes the first one late. -/
def trio : List Definition :=
  [(constructedWith "A" "B" .one).dependingOn (.named "C"),
    { constructedWith "B" "A" .lazy with init := [[.announce "init"]] },
    .ofSource ⟨"C"⟩ "C" (.object .unit)]

theorem refresh_order_trio : ∃ last d,
    refresh.exec (trio.foldl register (ofStore .empty)) = (.ok (), d) ∧
      (trio.foldl register (ofStore .empty)).registry.resolve .empty = .ok last ∧
      d.order = [2, 1, 0] ∧ d.calls .init 1 = [0] ∧
      ∀ j, last.Needs .empty false 0 j → j ∈ [2, 1] := by
  have h1 : (refresh.exec (trio.foldl register (ofStore .empty))).1 = .ok () := by cbv
  have h2 : (refresh.exec (trio.foldl register (ofStore .empty))).2.order = [2, 1, 0] := by cbv
  have h3 : (refresh.exec (trio.foldl register (ofStore .empty))).2.calls .init 1 = [0] := by cbv
  obtain ⟨last, hr, -, -, -, hsorted⟩ := refresh_order (fresh_register .empty trio)
    (Prod.ext h1 rfl)
  exact ⟨last, _, Prod.ext h1 rfl, hr, h2, h3, hsorted [2, 1] 0 [] h2⟩

end Container
end BeanContainer
