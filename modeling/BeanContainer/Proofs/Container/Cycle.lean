/-
# Cycles

Which containers start, when the beans are sound and nothing is cancelled: those whose graph of
needs has no cycle with a strict edge on it. A cycle of strict edges alone keeps a container from
starting, and the fault says which beans form one. The graph is that of the decided beans, so
neither depends on the order in which the beans are registered.

Key theorems: `Session.no_strict_cycle`, `Container.refresh_cycle`.
-/
import BeanContainer.Proofs.Container.Refresh

namespace BeanContainer

open Relation (ReflTransGen TransGen)

variable {last other : Registry} {store : Store} {σ : Equiv.Perm ℕ}

/-- What a bean needs at once stands before it in the order of beans that are all there. -/
theorem Session.idxOf_lt {c : Container} (hs : Session last store [] c)
    (hp : c.Complete last) {i j : ℕ} (h : last.Needs store false i j) :
    c.order.idxOf j < c.order.idxOf i := by
  have hneed := h
  obtain ⟨bean, hb, ha, -⟩ := hneed
  obtain ⟨front, back, ho⟩ := List.append_of_mem (hs.present_iff.mp (hp i bean hb ha))
  have hj := hs.sorted front i back ho j h
  have hn := hs.order_nodup
  rw [ho] at hn ⊢
  have hi : i ∉ front := fun hm =>
    (List.nodup_cons.mp (List.nodup_middle.mp hn)).1 (List.mem_append_left _ hm)
  rw [List.idxOf_append_of_mem hj, List.idxOf_append_of_notMem hi, List.idxOf_cons_self,
    Nat.add_zero]
  exact List.idxOf_lt_length_of_mem hj

/-- Beans that are all there don't need each other in a circle. -/
theorem Session.no_strict_cycle {c : Container} (hs : Session last store [] c)
    (hp : c.Complete last) {i : ℕ} : ¬ TransGen (last.Needs store false) i i := by
  have hlt : ∀ {j}, TransGen (last.Needs store false) i j →
      c.order.idxOf j < c.order.idxOf i := by
    intro j h
    induction h with
    | single h => exact hs.idxOf_lt hp h
    | tail _ h ih => exact (hs.idxOf_lt hp h).trans ih
  exact fun h => Nat.lt_irrefl _ (hlt h)

namespace Registry

/-! ### The graph in another order -/

theorem Reordered.needs_symm (h : Reordered σ last other) (hd : last.Decided)
    (hd' : other.Decided) {lazy : Bool} {i j : ℕ} (hn : other.Needs store lazy i j) :
    last.Needs store lazy (σ.symm i) (σ.symm j) := by
  rw [← h.needs hd hd', σ.apply_symm_apply, σ.apply_symm_apply]
  exact hn

theorem Reordered.edge_symm (h : Reordered σ last other) (hd : last.Decided)
    (hd' : other.Decided) {i j : ℕ} (he : other.Edge store i j) :
    last.Edge store (σ.symm i) (σ.symm j) := by
  obtain ⟨lazy, hn⟩ := he
  exact ⟨lazy, h.needs_symm hd hd' hn⟩

theorem reordered_swap (first second : Definition) :
    Reordered (Equiv.swap 0 1) (ofDefinitions [first, second]) (ofDefinitions [second, first]) := by
  rintro (_ | _ | i)
  · rfl
  · rfl
  · rw [Equiv.swap_apply_of_ne_of_ne (by omega) (by omega)]
    rfl

/-- A cycle is one in every order of the beans. -/
theorem Reordered.circular (h : Reordered σ last other) (hd : last.Decided)
    (hd' : other.Decided) {fault : Fault} (hc : other.Circular store fault) :
    last.Circular store fault := by
  obtain ⟨x, middle, hroot, hchain, u, v, hn, hr⟩ := hc
  have hpath : σ.symm x :: middle.map σ.symm ++ [σ.symm x] =
      (x :: middle ++ [x]).map σ.symm := by simp
  refine ⟨σ.symm x, middle.map σ.symm, ?_, ?_, σ.symm u, σ.symm v, h.needs_symm hd hd' hn, ?_⟩
  · rw [hroot, hpath, h.symm.ids_map]
  · rw [hpath, List.isChain_map]
    exact hchain.imp fun i j he => h.edge_symm hd hd' he
  · exact hr.lift σ.symm fun i j he => h.edge_symm hd hd' he

end Registry

/-- **Cycles are detected exactly, in every order of registration.** Take beans that are resolved
and sound, in any order, and a refresh that is never cancelled. If no cycle of the graph of needs
has a strict edge on it, the container starts. If some cycle has strict edges alone, it does not,
and the root of the fault is a cycle: a path of edges of the graph from a bean back to itself. -/
theorem Container.refresh_cycle {c c' : Container} (hr : c.registry.resolve c.store = .ok last)
    (hs : last.Sound c.store) (hc : c'.Fresh) (hstore : c'.store = c.store)
    (h : Registry.Reordered σ c.registry c'.registry)
    (hn : (refresh.exec c').2.cancelled = false) :
    ((∀ i j, last.Needs c.store false i j → ¬ ReflTransGen (last.Edge c.store) j i) →
      ∃ d, refresh.exec c' = (.ok (), d)) ∧
    ((∃ i, TransGen (last.Needs c.store false) i i) →
      ∃ fault d x middle, refresh.exec c' = (.error fault, d) ∧
        fault.root = .cycle (last.ids (x :: middle ++ [x])) ∧
        (x :: middle ++ [x]).IsChain (last.Edge c.store)) := by
  obtain ⟨last', hr', hσ⟩ := h.resolve_ok hr
  have hd : last.Decided := (Registry.resolve_ok hr).2.2.1
  have hd' : last'.Decided := (Registry.resolve_ok hr').2.2.1
  have hs' := hσ.sound hd hd' hs
  rw [← hstore] at hr' hs'
  -- a fault of the refresh is a cycle of the graph
  have hfault : ∀ fault d, refresh.exec c' = (.error fault, d) → last.Circular c.store fault := by
    intro fault d hx
    rcases refresh_error hc hr' hx with hsound | hcancel | hcircle
    · exact absurd hs' hsound
    · rw [hx] at hn
      rw [hn] at hcancel
      cases hcancel
    · rw [hstore] at hcircle
      exact hσ.circular hd hd' hcircle
  rcases hx : refresh.exec c' with ⟨fault | u, d⟩
  · obtain ⟨x, middle, hroot, hchain, u, v, hneed, hback⟩ := hfault fault d hx
    refine ⟨fun hno => absurd hback (hno u v hneed), fun _ => ?_⟩
    exact ⟨fault, d, x, middle, rfl, hroot, hchain⟩
  · refine ⟨fun _ => ⟨d, rfl⟩, ?_⟩
    rintro ⟨i, hi⟩
    obtain ⟨last'', done, hr'', hdone, hp, -⟩ := refresh_ok hc hx
    rw [hr'] at hr''
    cases hr''
    refine absurd ?_ (hdone.no_strict_cycle hp (i := σ i))
    rw [hstore]
    exact hi.lift σ fun a b hab => (hσ.needs hd hd').mpr hab

namespace Container

/-- Two beans, each of which is constructed with the other one. -/
def couple (receiver : Receiver) : List Definition :=
  [constructedWith "A" "B" receiver, constructedWith "B" "A" receiver]

/-- The two beans once they are decided. -/
def decidedCouple (receiver : Receiver) : Registry :=
  ⟨(couple receiver).map fun definition =>
    { Bean.ofDefinition definition with status := .resolved }⟩

theorem decidedCouple_sound {receiver : Receiver} (hr : receiver = .one ∨ receiver = .lazy) :
    (decidedCouple receiver).Sound .empty := by
  refine ⟨?_, ?_, ?_⟩
  · rintro (_ | _ | i) bean hb - selector hm <;> cases hb <;> cases hm
  · rintro (_ | _ | i) bean hb - <;> cases hb <;> rcases hr with rfl | rfl
    · exact ⟨⟨⟨⟨1, by cbv, rfl⟩, trivial⟩, fun values c _ _ => ⟨.unit, c, rfl⟩⟩, trivial⟩
    · exact ⟨⟨⟨⟨1, by cbv, .inl rfl⟩, trivial⟩, fun values c _ _ => ⟨.unit, c, rfl⟩⟩, trivial⟩
    · exact ⟨⟨⟨⟨1, by cbv, rfl⟩, trivial⟩, fun values c _ _ => ⟨.unit, c, rfl⟩⟩, trivial⟩
    · exact ⟨⟨⟨⟨1, by cbv, .inl rfl⟩, trivial⟩, fun values c _ _ => ⟨.unit, c, rfl⟩⟩, trivial⟩
  · rintro (_ | _ | i) bean hb - hook hm <;> cases hb <;> cases hm

theorem couple_reordered (receiver : Receiver) :
    Registry.Reordered (Equiv.swap 0 1) (Registry.ofDefinitions (couple receiver))
      (Registry.ofDefinitions (couple receiver).reverse) :=
  Registry.reordered_swap _ _

theorem decidedCouple_lazy {i j : ℕ} : ¬ (decidedCouple .lazy).Needs .empty false i j := by
  rintro ⟨bean, hb, -, ⟨-, selector, hm, -⟩ | ⟨want, hm, hl, -⟩⟩
  · rcases i with _ | _ | i <;> cases hb <;> cases hm
  · rcases i with _ | _ | i <;> cases hb <;> cases List.mem_singleton.mp hm <;> cases hl

theorem decidedCouple_one : TransGen ((decidedCouple .one).Needs .empty false) 0 0 := by
  have h0 : (decidedCouple .one).picks ⟨⟨"B"⟩, .byType, false⟩ = [1] := by cbv
  have h1 : (decidedCouple .one).picks ⟨⟨"A"⟩, .byType, false⟩ = [0] := by cbv
  have hto : (decidedCouple .one).Needs .empty false 0 1 :=
    ⟨_, rfl, rfl, .inr ⟨_, List.mem_cons_self, rfl, h0 ▸ List.mem_cons_self⟩⟩
  have hback : (decidedCouple .one).Needs .empty false 1 0 :=
    ⟨_, rfl, rfl, .inr ⟨_, List.mem_cons_self, rfl, h1 ▸ List.mem_cons_self⟩⟩
  exact .tail (.single hto) hback

theorem refresh_cycle_couple :
    (∃ d, refresh.exec ((couple .lazy).reverse.foldl register (ofStore .empty)) = (.ok (), d)) ∧
    ∃ fault d x middle,
      refresh.exec ((couple .one).reverse.foldl register (ofStore .empty)) = (.error fault, d) ∧
      fault.root = .cycle ((decidedCouple .one).ids (x :: middle ++ [x])) ∧
      (x :: middle ++ [x]).IsChain ((decidedCouple .one).Edge .empty) := by
  have hr : ∀ receiver, receiver = .one ∨ receiver = .lazy →
      ((couple receiver).foldl register (ofStore .empty)).registry.resolve .empty =
        .ok (decidedCouple receiver) := by
    rintro receiver (rfl | rfl) <;> cbv
  have hn : ∀ receiver, receiver = .one ∨ receiver = .lazy → (refresh.exec
      ((couple receiver).reverse.foldl register (ofStore .empty))).2.cancelled = false := by
    rintro receiver (rfl | rfl) <;> cbv
  have h := fun receiver hx => refresh_cycle
    (c := (couple receiver).foldl register (ofStore .empty)) (hr receiver hx)
    (decidedCouple_sound hx) (fresh_register .empty (couple receiver).reverse) rfl
    (couple_reordered receiver) (hn receiver hx)
  exact ⟨(h .lazy (.inr rfl)).1 fun i j hij => absurd hij decidedCouple_lazy,
    (h .one (.inl rfl)).2 ⟨0, decidedCouple_one⟩⟩

end Container
end BeanContainer
