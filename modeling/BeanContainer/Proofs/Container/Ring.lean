/-
# Rings of beans

Beans that are injected into each other in a circle, some of them late. Wiring goes round such a
ring from the bean that it enters first (`Session.framed`), and ends there: it succeeds when the
bean before that one in the ring refers to it late, and stops with the cycle when it wants it at
once. So the order of registration decides whether the container starts, by the bean at which the
ring is entered.

Key definitions: `Registry.Ring`.
Key theorems: `Wiring.Standstill.entered_strict`, `Session.entered_late`,
`Container.wireBeans_first`, `Container.wireBeans_ring`.
-/
import BeanContainer.Proofs.Container.Cycle

namespace BeanContainer

open Relation (ReflTransGen)

variable {last : Registry} {store : Store} {next : Equiv.Perm ℕ} {ring : Finset ℕ}

/-! ### Beans among those that were entered -/

section

variable {p : ℕ → Bool} {part entries : List ℕ} {x j : ℕ}

/-- Some of the entries, if they are all with a property, are all that have it in their order. -/
theorem filter_eq_of_sublist (hs : part.Sublist entries) (hn : entries.Nodup)
    (hp : ∀ i ∈ part, p i = true) (hall : ∀ i, p i = true → i ∈ part) :
    entries.filter p = part := by
  have hpart : part.Sublist (entries.filter p) := by
    have hf := hs.filter p
    rw [List.filter_eq_self.mpr hp] at hf
    exact hf
  have hsub : entries.filter p ⊆ part := fun i hi => hall i (List.mem_filter.mp hi).2
  exact (hpart.eq_of_length_le ((hn.filter p).subperm hsub).length_le).symm

/-- The first one with a property comes after no other one. -/
theorem not_sublist_of_find? (hn : entries.Nodup) (hx : entries.find? p = some x)
    (hj : p j = true) : ¬ [j, x].Sublist entries := by
  intro hs
  have hf := hs.filter p
  have hpair : [j, x].filter p = [j, x] := by simp [hj, List.find?_some hx]
  rw [← List.head?_filter, List.head?_eq_some_iff] at hx
  obtain ⟨more, hmore⟩ := hx
  have hnodup := hn.filter p
  rw [hmore] at hnodup hf
  rw [hpair] at hf
  have hmem : x ∈ more := by
    rcases List.sublist_cons_iff.mp hf with hf | ⟨rest, he, hf⟩
    · exact hf.subset (by simp)
    · obtain ⟨-, rfl⟩ := List.cons.inj he
      exact hf.subset List.mem_cons_self
  exact (List.nodup_cons.mp hnodup).1 hmem

end

/-! ### Rings -/

/-- The beans of `ring` are injected into each other in a circle, each with the next one; none of
them depends on the next one. There is no other cycle of the graph of needs with a strict edge. -/
structure Registry.Ring (last : Registry) (store : Store) (ring : Finset ℕ)
    (next : Equiv.Perm ℕ) : Prop where
  round : next.IsCycleOn ring
  several : ring.Nontrivial
  edge : ∀ i ∈ ring, last.Edge store i (next i)
  injected : ∀ i ∈ ring, ¬ last.DependsOn i (next i)
  only : ∀ x rest, (x :: rest).Nodup → (x :: rest ++ [x]).IsChain (last.Edge store) →
    (∃ a b, [a, b] <:+: x :: rest ++ [x] ∧ last.Needs store false a b) →
      x ∈ ring ∧ (x :: rest ++ [x]).IsChain fun a b => next a = b

namespace Registry.Ring

theorem next_mem (h : last.Ring store ring next) {i : ℕ} : next i ∈ ring ↔ i ∈ ring :=
  h.round.apply_mem_iff

theorem symm_mem (h : last.Ring store ring next) {i : ℕ} (hi : i ∈ ring) : next.symm i ∈ ring := by
  rw [← h.next_mem, next.apply_symm_apply]
  exact hi

theorem alive (h : last.Ring store ring next) {i : ℕ} (hi : i ∈ ring) :
    ∃ bean, last.beans[i]? = some bean ∧ bean.isAlive = true := by
  obtain ⟨lazy, bean, hb, ha, -⟩ := h.edge i hi
  exact ⟨bean, hb, ha⟩

/-- What holds of a bean of the ring and, from bean to bean, of the next one, holds of all. -/
theorem forall_mem (h : last.Ring store ring next) {holds : ℕ → Prop} {x : ℕ} (hx : x ∈ ring)
    (hfirst : holds x) (hstep : ∀ i ∈ ring, holds i → holds (next i)) : ∀ i ∈ ring, holds i := by
  have hpow : ∀ n : ℕ, (next ^ n) x ∈ ring ∧ holds ((next ^ n) x) := by
    intro n
    induction n with
    | zero => exact ⟨hx, hfirst⟩
    | succ n ih =>
      rw [pow_succ', Equiv.Perm.mul_apply]
      exact ⟨h.next_mem.mpr ih.1, hstep _ ih.1 ih.2⟩
  intro i hi
  obtain ⟨n, -, rfl⟩ := h.round.exists_pow_eq hx hi
  exact (hpow n).2

/-- A path that goes round the ring from `x` to `x` goes through all of it. -/
theorem mem_path (h : last.Ring store ring next) {x : ℕ} {rest : List ℕ} (hx : x ∈ ring)
    (hc : (x :: rest ++ [x]).IsChain fun a b => next a = b) {i : ℕ} : i ∈ ring ↔ i ∈ x :: rest := by
  constructor
  · refine h.forall_mem hx List.mem_cons_self (fun k _ hk => ?_) i
    -- the bean after `k` on the path is the next one
    obtain ⟨front, back, he⟩ := List.append_of_mem hk
    obtain ⟨b, more, hb⟩ := List.exists_cons_of_ne_nil (List.concat_ne_nil x back)
    have hsplit : x :: rest ++ [x] = front ++ k :: b :: more := by
      rw [he, List.append_assoc, List.cons_append, hb]
    rw [hsplit] at hc
    obtain ⟨hnext, -⟩ := List.isChain_cons_cons.mp hc.right_of_append
    have hmem : b ∈ x :: rest ++ [x] := by
      rw [hsplit]
      simp
    rw [hnext]
    rcases List.mem_append.mp hmem with hmem | hmem
    · exact hmem
    · exact List.mem_singleton.mp hmem ▸ List.mem_cons_self
  · intro hi
    rcases List.mem_cons.mp hi with rfl | hi
    · exact hx
    · refine hc.cons_induction (· ∈ ring) _ (fun a b hab ha => ?_) hx i (List.mem_append_left _ hi)
      exact hab ▸ h.next_mem.mpr ha

end Registry.Ring

/-! ### Where wiring ends -/

/-- The beans that were entered are those on the stack and those in the order, each once. -/
theorem Session.entries_nodup {stack : List ℕ} {c : Container} (hs : Session last store stack c)
    (hp : c.entries.Perm (stack ++ c.order)) : c.entries.Nodup := by
  refine hp.nodup_iff.mpr (List.nodup_append.mpr ⟨hs.stack_nodup, hs.order_nodup, ?_⟩)
  rintro i hi j hj rfl
  obtain ⟨bean, hb⟩ := hs.bean_of_lt (hs.stack_lt i hi)
  exact (hs.on_stack hi hb).1 hj

namespace Wiring.Standstill

variable {stack rest : List ℕ} {x i : ℕ} {fault : Fault} {d : Container}

/-- The cycle that wiring ends with is the ring. -/
theorem round (h : Standstill last store stack x rest fault d) (hr : last.Ring store ring next) :
    x ∈ ring ∧ (x :: rest ++ [x]).IsChain fun a b => next a = b :=
  hr.only x rest (h.top.sublist.nodup h.session.stack_nodup) h.closed h.exists_strict

/-- The first bean on the stack leads to the one that was asked for again. -/
theorem leads (h : Standstill last store stack x rest fault d) (hi : ∀ k ∈ stack.head?, k = i) :
    ReflTransGen (last.Edge store) i x := by
  have hx : x ∈ stack := h.top.subset List.mem_cons_self
  cases stack with
  | nil => cases hx
  | cons first more =>
    obtain rfl := hi first rfl
    rcases List.mem_cons.mp hx with rfl | hx
    · exact .refl
    · exact h.path.cons_induction (ReflTransGen (last.Edge store) first ·) _
        (fun _ _ he hlead => hlead.tail he) .refl x hx

/-- **Where wiring stops, the ring was entered at a bean that the one before it wants at once.** -/
theorem entered_strict (h : Standstill last store stack x rest fault d)
    (hr : last.Ring store ring next) (hp : d.entries.Perm (stack ++ d.order)) :
    d.entries.find? (· ∈ ring) = some x ∧ last.Needs store false (next.symm x) x := by
  obtain ⟨hx, hchain⟩ := h.round hr
  constructor
  · -- the beans of the ring are on the stack, so they were entered in the order of the cycle
    have hpart : (x :: rest).Sublist d.entries := h.top.sublist.trans h.session.entered
    have hfilter : d.entries.filter (· ∈ ring) = x :: rest := by
      refine filter_eq_of_sublist hpart (h.session.entries_nodup hp) (fun i hi => ?_) fun i hi => ?_
      · exact decide_eq_true ((hr.mem_path hx hchain).mpr hi)
      · exact (hr.mem_path hx hchain).mp (of_decide_eq_true hi)
    rw [← List.head?_filter, hfilter]
    rfl
  · rcases h.strict with ⟨a, ha, hneed⟩ | ⟨b, hb, hneed⟩
    · obtain ⟨front, hfront⟩ := List.getLast?_eq_some_iff.mp ha
      rw [hfront, List.append_assoc] at hchain
      obtain ⟨hnext, -⟩ := List.isChain_cons_cons.mp hchain.right_of_append
      rw [← hnext, next.symm_apply_apply, hnext]
      exact hneed
    · obtain ⟨more, hmore⟩ := List.head?_eq_some_iff.mp hb
      rw [List.cons_append, hmore] at hchain
      obtain ⟨hnext, -⟩ := List.isChain_cons_cons.mp hchain
      exact absurd (hnext ▸ hneed) (hr.injected x hx)

end Wiring.Standstill

/-- **Where all beans are made, the ring was entered at a bean that the one before it refers to
late.** -/
theorem Session.entered_late {c : Container} (hs : Session last store [] c)
    (hall : c.Complete last) (hr : last.Ring store ring next) (hp : c.entries.Perm c.order) :
    ∃ x ∈ ring, c.entries.find? (· ∈ ring) = some x ∧
      ¬ last.Needs store false (next.symm x) x := by
  have horder : ∀ i ∈ ring, i ∈ c.order := by
    intro i hi
    obtain ⟨bean, hb, ha⟩ := hr.alive hi
    exact hs.present_iff.mp (hall i bean hb ha)
  obtain ⟨x, hfind⟩ : ∃ x, c.entries.find? (· ∈ ring) = some x := by
    obtain ⟨i, hi⟩ := hr.several.nonempty
    rw [← Option.isSome_iff_exists, List.find?_isSome]
    exact ⟨i, hp.mem_iff.mpr (horder i hi), decide_eq_true hi⟩
  have hx : x ∈ ring := of_decide_eq_true (List.find?_some (p := (· ∈ ring)) hfind)
  refine ⟨x, hx, hfind, fun hneed => ?_⟩
  obtain ⟨front, back, ho⟩ := List.append_of_mem (horder x hx)
  -- by the end of the making of `x`, the whole ring is made
  have hmade : ∀ i ∈ ring, i ∈ front ++ [x] := by
    refine hr.forall_mem hx List.mem_concat_self fun i hi hm => ?_
    refine (hs.framed front x back ho i hm _ (hr.edge i hi)).resolve_right ?_
    exact not_sublist_of_find? (hs.entries_nodup hp) hfind (decide_eq_true (hr.next_mem.mpr hi))
  have hne : next.symm x ≠ x := by
    intro he
    have hfix : x = next x := next.symm_apply_eq.mp he
    exact hr.round.apply_ne hr.several hx hfix.symm
  have hfront : next.symm x ∈ front := by
    rcases List.mem_append.mp (hmade _ (hr.symm_mem hx)) with hm | hm
    · exact hm
    · exact absurd (List.mem_singleton.mp hm) hne
  -- so `x` would stand before itself
  obtain ⟨before, between, rfl⟩ := List.append_of_mem hfront
  have hbefore : x ∈ before := by
    refine hs.sorted before (next.symm x) (between ++ x :: back) ?_ x hneed
    rw [ho, List.append_assoc]
    rfl
  have hn := hs.order_nodup
  rw [ho, List.nodup_middle] at hn
  exact (List.nodup_cons.mp hn).1 (by simp [hbefore])

namespace Container

variable {c d : Container} {i r : ℕ} {fault : Fault}

/-- A bean that is entered first since no bean of the ring was entered is the first one of the ring,
if a bean of the ring is entered at all. -/
theorem Opens.find? (h : Opens r c d) (hr : r ∈ ring) (hc : ∀ i ∈ c.entries, i ∉ ring)
    (hd : ∃ i ∈ d.entries, i ∈ ring) : d.entries.find? (· ∈ ring) = some r := by
  obtain ⟨entered, he, hfirst⟩ := h
  obtain ⟨i, hi, hring⟩ := hd
  have hnone : c.entries.find? (· ∈ ring) = none := by
    rw [List.find?_eq_none]
    exact fun j hj => by simpa using hc j hj
  rw [he] at hi ⊢
  rw [List.find?_append, hnone, Option.none_or]
  cases entered with
  | nil =>
    rw [List.append_nil] at hi
    exact absurd hring (hc i hi)
  | cons first more =>
    obtain rfl := hfirst first rfl
    exact List.find?_cons_of_pos (decide_eq_true hr)

section

variable {roots : List ℕ}

/-- Roots that are refused lead to the ring, and what was entered before them stays entered. -/
theorem wireRoots_refused (hs : Session last store [] c) (hsound : last.Sound store)
    (hring : last.Ring store ring next) (hroots : ∀ i ∈ roots, i < last.beans.length)
    (hx : Run.exec (roots.forM (Wiring.wireRoot last.beans.length)) c = (.error fault, d))
    (hn : d.cancelled = false) :
    (∃ i ∈ roots, ∃ x ∈ ring, ReflTransGen (last.Edge store) i x) ∧ c.entries <+: d.entries := by
  obtain ⟨i, hi, c', -, hg, hstops⟩ := wireRoots_stops hroots hs hx
  obtain ⟨more, x, rest, hstill, hg', -, hmore⟩ := hstops.standstill hsound hn
  exact ⟨⟨i, hi, x, (hstill.round hring).1, hstill.leads hmore⟩, hg.entries.trans hg'.entries⟩

/-- Roots that don't lead to the ring are made without entering it. -/
theorem wireRoots_apart (hs : Session last store [] c) (hentries : c.entries = [])
    (horder : c.order = []) (hroots : ∀ i ∈ roots, i < last.beans.length)
    (hapart : ∀ i ∈ roots, ∀ j, ReflTransGen (last.Edge store) i j → j ∉ ring)
    (hx : Run.exec (roots.forM (Wiring.wireRoot last.beans.length)) c = (.ok ⟨⟩, d)) :
    ∀ k ∈ d.entries, k ∉ ring := by
  intro k hk
  obtain ⟨-, hg, -, hlead⟩ := wireRoots_ok hroots hs hx
  have hperm : d.entries.Perm d.order := hg.perm (by rw [hentries, horder])
  rcases hlead k (hperm.mem_iff.mp hk) with hk | ⟨i, hi, hlead⟩
  · rw [horder] at hk
    cases hk
  · exact hapart i hi k hlead

/-- A bean of the ring that is wired while none of them was entered is the first one. -/
theorem wireRoot_enters_ok (hs : Session last store [] c) (hring : last.Ring store ring next)
    (hr : r ∈ ring) (hc : ∀ k ∈ c.entries, k ∉ ring) (hp : c.entries.Perm c.order)
    (hx : (Wiring.wireRoot last.beans.length r).exec c = (.ok (), d)) :
    d.entries.find? (· ∈ ring) = some r := by
  obtain ⟨bean, hb, ha⟩ := hring.alive hr
  obtain ⟨hs', hg, hpresent, -, hopens⟩ :=
    wireRoot_ok hs (List.getElem?_eq_some_iff.mp hb).1 hx
  refine hopens.find? hr hc ⟨r, ?_, hr⟩
  exact (hg.perm hp).mem_iff.mpr (hs'.present_iff.mp (hpresent bean hb ha))

/-- A bean of the ring that is refused while none of them was entered is the first one. -/
theorem wireRoot_enters_error (hs : Session last store [] c) (hsound : last.Sound store)
    (hring : last.Ring store ring next) (hr : r ∈ ring) (hc : ∀ k ∈ c.entries, k ∉ ring)
    (hx : (Wiring.wireRoot last.beans.length r).exec c = (.error fault, d))
    (hn : d.cancelled = false) : d.entries.find? (· ∈ ring) = some r := by
  obtain ⟨bean, hb, -⟩ := hring.alive hr
  have hstops := (wireRoot_error hs (List.getElem?_eq_some_iff.mp hb).1 hx).2.stops
  obtain ⟨more, x, rest, hstill, -, hopens, -⟩ := hstops.standstill hsound hn
  refine hopens.find? hr hc ⟨x, ?_, (hstill.round hring).1⟩
  exact hstill.session.entered.subset (hstill.top.subset List.mem_cons_self)

end

/-- **The ring is entered at its first registered bean**, if no bean that is registered before that
one leads to the ring. -/
theorem wireBeans_first (hs : Session last store [] c) (hentries : c.entries = [])
    (horder : c.order = []) (hsound : last.Sound store) (hring : last.Ring store ring next)
    (hn : (wireBeans.exec c).2.cancelled = false) (hr : r ∈ ring)
    (hbefore : ∀ i < r, ∀ j, ReflTransGen (last.Edge store) i j → j ∉ ring) :
    (wireBeans.exec c).2.entries.find? (· ∈ ring) = some r := by
  obtain ⟨bean, hb, -⟩ := hring.alive hr
  have hlt : r < last.beans.length := (List.getElem?_eq_some_iff.mp hb).1
  obtain ⟨front, back, hsplit⟩ := List.append_of_mem (List.mem_range.mpr hlt)
  have hfront : ∀ i ∈ front, i < r := by
    have hsorted := List.pairwise_lt_range (n := last.beans.length)
    rw [hsplit, List.pairwise_append] at hsorted
    exact fun i hi => hsorted.2.2 i hi r List.mem_cons_self
  have hfront' : ∀ i ∈ front, i < last.beans.length := fun i hi => (hfront i hi).trans hlt
  have hback : ∀ i ∈ back, i < last.beans.length := by
    intro i hi
    rw [← List.mem_range, hsplit]
    simp [hi]
  have hapart : ∀ i ∈ front, ∀ j, ReflTransGen (last.Edge store) i j → j ∉ ring :=
    fun i hi => hbefore i (hfront i hi)
  -- the beans before `r`, then `r`, then those after it
  rw [exec_wireBeans hs, hsplit, Run.forM_append] at hn ⊢
  rcases h1 : Run.exec (front.forM (Wiring.wireRoot last.beans.length)) c with ⟨fault | u, c1⟩
  · rw [Run.exec_bind_error h1] at hn
    obtain ⟨⟨i, hi, x, hx, hlead⟩, -⟩ := wireRoots_refused hs hsound hring hfront' h1 hn
    exact absurd hx (hapart i hi x hlead)
  rw [Run.exec_bind_ok h1, Run.forM_cons] at hn ⊢
  obtain ⟨hs1, hg1, -⟩ := wireRoots_ok hfront' hs h1
  have hp1 : c1.entries.Perm c1.order := hg1.perm (by rw [hentries, horder])
  have hc1 := wireRoots_apart hs hentries horder hfront' hapart h1
  rcases h2 : (Wiring.wireRoot last.beans.length r).exec c1 with ⟨fault | u, c2⟩
  · rw [Run.exec_bind_error h2] at hn ⊢
    exact wireRoot_enters_error hs1 hsound hring hr hc1 h2 hn
  rw [Run.exec_bind_ok h2] at hn ⊢
  obtain ⟨hs2, -⟩ := wireRoot_ok hs1 hlt h2
  have hfirst := wireRoot_enters_ok hs1 hring hr hc1 hp1 h2
  rcases h3 : Run.exec (back.forM (Wiring.wireRoot last.beans.length)) c2 with ⟨fault | u, d⟩
  · rw [h3] at hn
    obtain ⟨-, hgrown⟩ := wireRoots_refused hs2 hsound hring hback h3 hn
    exact hgrown.find?_eq_some hfirst
  · obtain ⟨-, hg3, -⟩ := wireRoots_ok hback hs2 h3
    exact hg3.entries.find?_eq_some hfirst

/-- How the making of sound beans ends that form a ring. -/
theorem wireBeans_ring (hs : Session last store [] c) (hentries : c.entries = [])
    (horder : c.order = []) (hsound : last.Sound store) (hring : last.Ring store ring next)
    (hn : (wireBeans.exec c).2.cancelled = false) :
    ∃ x ∈ ring, (wireBeans.exec c).2.entries.find? (· ∈ ring) = some x ∧
      ((∃ d, wireBeans.exec c = (.ok (), d)) ∧ ¬ last.Needs store false (next.symm x) x ∨
        ∃ fault d rest, wireBeans.exec c = (.error fault, d) ∧
          last.Needs store false (next.symm x) x ∧
          fault.root = .cycle (last.ids (x :: rest ++ [x])) ∧
          (x :: rest ++ [x]).IsChain fun a b => next a = b) := by
  have hempty : c.entries.Perm c.order := by rw [hentries, horder]
  rcases hx : wireBeans.exec c with ⟨fault | u, d⟩
  · rw [hx] at hn
    obtain ⟨i, c', -, hg, hstops⟩ := wireBeans_stops hs hx
    obtain ⟨more, x, rest, hstill, hg', -⟩ := hstops.standstill hsound hn
    obtain ⟨hfind, hneed⟩ := hstill.entered_strict hring ((hg.trans hg').perm hempty)
    obtain ⟨hmem, hchain⟩ := hstill.round hring
    exact ⟨x, hmem, hfind, .inr ⟨fault, d, rest, rfl, hneed, hstill.root, hchain⟩⟩
  · obtain ⟨hs', hg, hall⟩ := wireBeans_ok hs hx
    obtain ⟨x, hmem, hfind, hlate⟩ := hs'.entered_late hall hring (hg.perm hempty)
    exact ⟨x, hmem, hfind, .inl ⟨⟨d, rfl⟩, hlate⟩⟩

end Container

end BeanContainer
