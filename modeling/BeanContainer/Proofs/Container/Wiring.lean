/-
# Wiring as a walk through the graph of needs

`Wiring.wire` goes through the graph of needs depth first. It keeps sessions, whatever the graph is.
The beans on the stack are a path of the graph (`Wiring.Trail`), so a bean that is met again on the
stack closes a cycle, and the only fault that sound beans meet is that cycle, or cancellation. A
cycle that is reported has an edge in it that can't wait: a bean is met again while it is
constructed and wanted at once, or while the beans are made that it depends on.

A fault arises in the making of one bean, on top of the stack (`Wiring.Broken`), and gets the frame
of that stack. On its way down the stack it stays as it is.

Key definitions: `Registry.Circular`, `Wiring.Verdict`, `Wiring.Hop`, `Wiring.Trail`,
`Wiring.Standstill`, `Wiring.Denied`, `Wiring.Broken`, `Wiring.Failed`, `Wiring.Stops`,
`Wiring.Blames`.
Key theorems: `Wiring.mustMake_verdict`, `Wiring.standstill_of_trail`, `Wiring.wire_makes`,
`Wiring.wire_error`, `Wiring.Failed.stops`.
-/
import BeanContainer.Proofs.Container.Failing
import Mathlib.Data.List.Chain

namespace BeanContainer

/-- The fault is a cycle of the graph of needs, and one of the edges on it is strict. -/
def Registry.Circular (last : Registry) (store : Store) (fault : Fault) : Prop :=
  ∃ x middle, fault.root = .cycle (last.ids (x :: middle ++ [x])) ∧
    (x :: middle ++ [x]).IsChain (last.Edge store) ∧
    ∃ u v, last.Needs store false u v ∧ Relation.ReflTransGen (last.Edge store) v u

theorem Registry.Needs.alive {last : Registry} {store : Store} {lazy : Bool} {i j : ℕ}
    (h : last.Needs store lazy i j) : ∃ bean, last.beans[j]? = some bean ∧ bean.isAlive = true := by
  obtain ⟨_, -, -, ⟨-, selector, -, hj⟩ | ⟨want, -, -, hj⟩⟩ := h
  · exact alive_of_mem_find hj
  · unfold picks at hj
    rcases hs : last.select want.type want.tag with reason | positions
    · rw [hs] at hj
      cases hj
    · rw [hs] at hj
      exact alive_of_select hs hj

namespace Wiring

open Container (Grows Opens)
open Relation (ReflTransGen)

variable {last : Registry} {store : Store} {stack : List ℕ} {c d : Container} {lazy : Bool}
  {i j : ℕ} {fault : Fault}

/-! ### Whether a bean is made -/

/-- What `mustMake` finds in a session. -/
inductive Verdict (last : Registry) (stack : List ℕ) (lazy : Bool) (i : ℕ) (c : Container) :
    Except Fault Bool × Container → Prop
  | cancelled : c.cancelled = true → Verdict last stack lazy i c (.error .cancelled, c)
  | there : (i < last.beans.length → c.Granted stack lazy i) →
      Verdict last stack lazy i c (.ok false, c)
  | toMake {bean : Bean} : c.bean? i = some bean → bean.status = .resolved → i ∉ stack →
      Verdict last stack lazy i c (.ok true, c)
  | circle {bean : Bean} : c.cancelled = false → i ∈ stack → c.bean? i = some bean →
      (lazy = false ∨ bean.status = .resolved) →
      Verdict last stack lazy i c (.error (cycle c stack i), c)
  | dropped {bean : Bean} {fault : Fault} : last.beans[i]? = some bean → bean.isAlive = false →
      Verdict last stack lazy i c (.error fault, c)

theorem mustMake_verdict (hs : Session last store stack c) (lazy : Bool) (i : ℕ) :
    Verdict last stack lazy i c ((mustMake stack lazy i).exec c) := by
  unfold mustMake
  rw [Run.exec_get_bind]
  by_cases hc : c.cancelled = true
  · rw [if_pos hc]
    exact .cancelled hc
  rw [if_neg hc]
  rw [Bool.not_eq_true] at hc
  rcases hb : c.bean? i with _ | bean
  · refine .there fun hi => ?_
    obtain ⟨bean, hbean⟩ := hs.bean_of_lt hi
    rw [hb] at hbean
    cases hbean
  · show Verdict last stack lazy i c (Run.exec (match bean.status with | _ => _) c)
    cases hs.fits i bean hb with
    | waiting first status order calls =>
      rw [status]
      dsimp only
      by_cases hi : i ∈ stack
      · rw [if_pos (by simpa using hi)]
        exact .circle hc hi hb (.inr status)
      · rw [if_neg (by simpa using hi)]
        exact .toMake hb status hi
    | dropped first status =>
      rw [status]
      refine .dropped first ?_
      unfold Bean.isAlive
      rw [status]
      rfl
    | making status hi =>
      have hcircle : Verdict last stack lazy i c (Run.exec (if (lazy && stack.contains i) = true
          then return false else throw (cycle c stack i)) c) := by
        cases hl : lazy with
        | true =>
          rw [if_pos (by simpa using hi)]
          exact .there fun _ => .inr ⟨rfl, hi⟩
        | false => exact .circle hc hi hb (.inl rfl)
      rcases status with status | status <;> rw [status] <;> exact hcircle
    | made status _ order =>
      rw [status]
      exact .there fun _ => .inl (hs.present_iff.mpr order)

/-! ### The path of the stack -/

/-- The bean at `i` asks for the one at `j`. -/
def Hop (last : Registry) (store : Store) (c : Container) (i : ℕ) (lazy : Bool) (j : ℕ) : Prop :=
  ∃ bean, c.bean? i = some bean ∧ bean.Seeks last store lazy j

/-- The stack is a path of beans that ask each for the next one, and the last bean on it asks for the
one at `i`. -/
structure Trail (last : Registry) (store : Store) (c : Container) (stack : List ℕ) (lazy : Bool)
    (i : ℕ) : Prop where
  chain : stack.IsChain fun a b => ∃ l, Hop last store c a l b
  hop : ∀ a ∈ stack.getLast?, Hop last store c a lazy i
  alive : ∃ bean, last.beans[i]? = some bean ∧ bean.isAlive = true

theorem Hop.of_bean (h : Hop last store c i lazy j) (hb : d.bean? i = c.bean? i) :
    Hop last store d i lazy j := by
  obtain ⟨bean, hbean, hseeks⟩ := h
  exact ⟨bean, hb.trans hbean, hseeks⟩

/-- While the bean is resolved, it depends on those that it asks for. -/
theorem Hop.dependsOn (hs : Session last store stack c) (h : Hop last store c i lazy j)
    {bean : Bean} (hb : c.bean? i = some bean) (hr : bean.status = .resolved) :
    last.DependsOn i j ∧ lazy = false := by
  obtain ⟨bean', hb', hseeks⟩ := h
  rw [hb] at hb'
  cases hb'
  obtain ⟨first, hf, hst⟩ := hs.kept.alike.bean hb
  obtain ⟨hd, ha, -⟩ := Bean.standing_eq hst
  have halive := ha ▸ hseeks.isAlive
  unfold Bean.Seeks at hseeks
  rw [hr, hd] at hseeks
  exact ⟨⟨first, hf, halive, hseeks.2⟩, hseeks.1⟩

/-- A bean that asks for another one needs it. -/
theorem Hop.needs (hs : Session last store stack c) (h : Hop last store c i lazy j) :
    last.Needs store lazy i j := by
  obtain ⟨bean, hb, hseeks⟩ := id h
  obtain ⟨first, hf, hst⟩ := hs.kept.alike.bean hb
  obtain ⟨hd, ha, -⟩ := Bean.standing_eq hst
  have halive := ha ▸ hseeks.isAlive
  unfold Bean.Seeks at hseeks
  rw [hd] at hseeks
  split at hseeks
  · next hr =>
    obtain ⟨hdepends, rfl⟩ := h.dependsOn hs hb hr
    exact hdepends.needs store
  · exact ⟨first, hf, halive, .inr (Registry.asks_and.mpr (.inl hseeks))⟩
  · exact ⟨first, hf, halive, .inr (Registry.asks_and.mpr (.inr hseeks))⟩
  · cases hseeks

theorem Hop.edge (hs : Session last store stack c) (h : Hop last store c i lazy j) :
    last.Edge store i j := ⟨lazy, h.needs hs⟩

/-- The bean that the last one on the stack asks for goes on the stack. -/
theorem Trail.chain_concat (h : Trail last store c stack lazy i)
    (hb : ∀ a ∈ stack, d.bean? a = c.bean? a) :
    (stack ++ [i]).IsChain fun a b => ∃ l, Hop last store d a l b := by
  rw [List.isChain_append]
  refine ⟨?_, List.isChain_singleton i, fun a ha b hlast => ?_⟩
  · refine h.chain.imp_of_mem_imp fun a b ha _ => ?_
    rintro ⟨l, hl⟩
    exact ⟨l, hl.of_bean (hb a ha)⟩
  · cases hlast
    exact ⟨lazy, (h.hop a ha).of_bean (hb a (List.mem_of_getLast? ha))⟩

/-- It is made, and asks for another one. -/
theorem Trail.push (h : Trail last store c stack lazy i) (hb : ∀ a ∈ stack, d.bean? a = c.bean? a)
    {below : List ℕ} (hs : Session last store below d) {lazy' : Bool}
    (hop : Hop last store d i lazy' j) : Trail last store d (stack ++ [i]) lazy' j where
  chain := h.chain_concat hb
  hop a ha := by
    rw [List.getLast?_concat] at ha
    cases ha
    exact hop
  alive := (hop.needs hs).alive

/-! ### The end of the path -/

/-- The beans on the stack are a path of needs, and the last one asks for `x`, which is on the stack
with `rest` above it. The bean at `x` is wanted at once, or depends on the next one. -/
structure Standstill (last : Registry) (store : Store) (stack : List ℕ) (x : ℕ) (rest : List ℕ)
    (fault : Fault) (d : Container) : Prop where
  session : Session last store stack d
  path : stack.IsChain (last.Edge store)
  top : x :: rest <:+ stack
  closed : (x :: rest ++ [x]).IsChain (last.Edge store)
  strict : (∃ a ∈ (x :: rest).getLast?, last.Needs store false a x) ∨
    ∃ b ∈ (rest ++ [x]).head?, last.DependsOn x b
  root : fault.root = .cycle (last.ids (x :: rest ++ [x]))

/-- **A bean that is met again on the stack closes a cycle of the graph.** -/
theorem standstill_of_trail (hs : Session last store stack c)
    (h : Trail last store c stack lazy i) (hi : i ∈ stack) {bean : Bean}
    (hb : c.bean? i = some bean) (hl : lazy = false ∨ bean.status = .resolved) :
    ∃ rest, Standstill last store stack i rest (cycle c stack i) c := by
  obtain ⟨front, rest, rfl, hfront⟩ := List.eq_append_cons_of_mem hi
  have hpath : (front ++ i :: rest).dropWhile (· != i) = i :: rest := by
    rw [List.dropWhile_append_of_pos]
    · simp
    · intro k hk
      simp only [bne_iff_ne]
      exact fun he => hfront (he ▸ hk)
  have hrest : (i :: rest).IsChain fun a b => ∃ l, Hop last store c a l b :=
    h.chain.right_of_append
  have hedge : ∀ a b, (∃ l, Hop last store c a l b) → last.Edge store a b :=
    fun a b ⟨l, hl⟩ => hl.edge hs
  have hlast : ∀ a ∈ (i :: rest).getLast?, Hop last store c a lazy i := by
    intro a ha
    refine h.hop a ?_
    rw [List.getLast?_append_of_ne_nil _ (List.cons_ne_nil _ _)]
    exact ha
  have hclosed : (i :: rest ++ [i]).IsChain fun a b => ∃ l, Hop last store c a l b := by
    rw [List.isChain_append]
    refine ⟨hrest, List.isChain_singleton i, fun a ha b hb => ?_⟩
    cases hb
    exact ⟨lazy, hlast a ha⟩
  refine ⟨rest, hs, h.chain.imp hedge, List.suffix_append _ _, hclosed.imp hedge, ?_, ?_⟩
  · rcases hl with hl | hr
    · -- the edge that closes the cycle is strict
      have hend := List.getLast?_eq_some_getLast (List.cons_ne_nil i rest)
      exact .inl ⟨_, hend, hl ▸ (hlast _ hend).needs hs⟩
    · -- the bean waits for those that it depends on
      obtain ⟨b, more, hmore⟩ := List.exists_cons_of_ne_nil (List.concat_ne_nil i rest)
      rw [List.cons_append, hmore] at hclosed
      obtain ⟨⟨l, hop⟩, -⟩ := List.isChain_cons_cons.mp hclosed
      exact .inr ⟨b, by rw [hmore]; rfl, (hop.dependsOn hs hb hr).1⟩
  · unfold cycle Fault.root
    rw [hpath, hs.kept.alike.ids]

/-- On the cycle there is an edge that can't wait. -/
theorem Standstill.exists_strict {x : ℕ} {rest : List ℕ}
    (h : Standstill last store stack x rest fault d) :
    ∃ a b, [a, b] <:+: x :: rest ++ [x] ∧ last.Needs store false a b := by
  rcases h.strict with ⟨a, ha, hneed⟩ | ⟨b, hb, hneed⟩
  · obtain ⟨front, hfront⟩ := List.getLast?_eq_some_iff.mp ha
    refine ⟨a, x, List.IsSuffix.isInfix ⟨front, ?_⟩, hneed⟩
    rw [hfront, List.append_assoc]
    rfl
  · obtain ⟨more, hmore⟩ := List.head?_eq_some_iff.mp hb
    refine ⟨x, b, List.IsPrefix.isInfix ⟨more, ?_⟩, hneed.needs store⟩
    show x :: b :: more = x :: (rest ++ [x])
    rw [hmore]

theorem Standstill.circular {x : ℕ} {rest : List ℕ}
    (h : Standstill last store stack x rest fault d) : last.Circular store fault := by
  obtain ⟨a, b, hpair, hneed⟩ := h.exists_strict
  have hfrom : ∀ k ∈ rest ++ [x], ReflTransGen (last.Edge store) x k :=
    h.closed.cons_induction (ReflTransGen (last.Edge store) x ·) _
      (fun _ _ he hx => hx.tail he) .refl
  have hto : ∀ k ∈ x :: rest, ReflTransGen (last.Edge store) k x :=
    h.closed.backwards_concat_induction (ReflTransGen (last.Edge store) · x) _
      (fun _ _ he hx => hx.head he) .refl
  refine ⟨x, rest, h.root, h.closed, a, b, hneed, ReflTransGen.trans (b := x) ?_ ?_⟩
  · have hb : b ∈ x :: rest ++ [x] := hpair.subset (by simp)
    rcases List.mem_append.mp hb with hb | hb
    · exact hto b hb
    · exact List.mem_singleton.mp hb ▸ .refl
  · rcases List.mem_cons.mp (hpair.subset List.mem_cons_self) with rfl | ha
    · exact .refl
    · exact hfrom a ha

/-! ### Wiring -/

theorem lt_of_bean? (hs : Session last store stack c) {bean : Bean}
    (hb : c.bean? i = some bean) : i < last.beans.length := by
  rw [← hs.kept.alike.length]
  exact (List.getElem?_eq_some_iff.mp hb).1

/-- A stack without room for another bean holds all beans, as they are different. -/
theorem mem_of_full (hs : Session last store stack c)
    (hroom : last.beans.length ≤ 0 + stack.length) {bean : Bean} (hb : c.bean? i = some bean) :
    i ∈ stack := by
  by_contra hi
  have hn : (i :: stack).Nodup := List.nodup_cons.mpr ⟨hi, hs.stack_nodup⟩
  have hsub : (i :: stack) ⊆ List.range last.beans.length := by
    intro j hj
    rw [List.mem_range]
    rcases List.mem_cons.mp hj with rfl | hj
    · exact lt_of_bean? hs hb
    · exact hs.stack_lt j hj
  have hle := (hn.subperm hsub).length_le
  rw [List.length_cons, List.length_range] at hle
  omega

/-- A bean on the stack takes its place out of the room. -/
theorem room_concat {n room : ℕ} (h : n ≤ room + 1 + stack.length) (i : ℕ) :
    n ≤ room + (stack ++ [i]).length := by
  rw [List.length_append, List.length_singleton]
  omega

/-- A bean that is granted already needs no wiring. -/
theorem served_of_granted (hg : c.Granted stack lazy i) :
    c.Served last store stack (fun lazy' j => lazy' = lazy ∧ j = i) c := by
  refine ⟨fun _ _ => id, ?_, fun k hk => .inl hk⟩
  rintro lazy' j ⟨rfl, rfl⟩
  exact hg

/-- Wiring ends as `mustMake` does, or it makes the bean, for which there is room. -/
theorem wire_inv {room : ℕ} (hs : Session last store stack c)
    (hroom : last.beans.length ≤ room + stack.length) {result : Except Fault Unit}
    (hx : (wire room stack lazy i).exec c = (result, d)) :
    (∃ fault, result = .error fault ∧ (mustMake stack lazy i).exec c = (.error fault, d)) ∨
    (result = .ok () ∧ d = c ∧ (i < last.beans.length → c.Granted stack lazy i)) ∨
    ∃ less bean, room = less + 1 ∧ c.bean? i = some bean ∧ bean.status = .resolved ∧ i ∉ stack ∧
      (annotated (stack ++ [i]) (build (wire less (stack ++ [i])) i)).exec c = (result, d) := by
  have hv := mustMake_verdict hs lazy i
  rcases hm : (mustMake stack lazy i).exec c with ⟨fault | b, c'⟩
  · refine .inl ⟨fault, ?_⟩
    cases room <;> unfold wire at hx <;> rw [Run.exec_bind_error hm] at hx <;> cases hx <;>
      exact ⟨rfl, rfl⟩
  · rw [hm] at hv
    cases hv with
    | there hp =>
      refine .inr (.inl ?_)
      cases room <;> unfold wire at hx <;> rw [Run.exec_bind_ok hm] at hx <;> cases hx <;>
        exact ⟨rfl, rfl, hp⟩
    | @toMake bean hb hr hn =>
      refine .inr (.inr ?_)
      cases room with
      | zero => exact absurd (mem_of_full hs hroom hb) hn
      | succ less =>
        unfold wire at hx
        rw [Run.exec_bind_ok hm] at hx
        exact ⟨less, bean, rfl, hb, hr, hn, hx⟩

/-- What `wire` does when it succeeds. -/
theorem wire_ok (room : ℕ) : ∀ {stack : List ℕ} {lazy : Bool} {i : ℕ} {c d : Container},
    last.beans.length ≤ room + stack.length → i < last.beans.length →
    Session last store stack c → (wire room stack lazy i).exec c = (.ok (), d) →
      Session last store stack d ∧ Grows stack [] c d ∧
        c.Served last store stack (fun lazy' j => lazy' = lazy ∧ j = i) d ∧ Opens i c d := by
  induction room using Nat.strongRec with
  | ind room ih =>
    intro stack lazy i c d hroom hi hs hx
    rcases wire_inv hs hroom hx with ⟨_, he, -⟩ | ⟨-, rfl, hp⟩ | ⟨less, bean, rfl, hb, hr, hn, hx⟩
    · cases he
    · exact ⟨hs, .refl _ _, served_of_granted (hp hi), .refl _ _⟩
    · rw [Run.exec_annotated] at hx
      rcases hbuild : (build (wire less (stack ++ [i])) i).exec c with ⟨fault | u, d'⟩ <;>
        rw [hbuild] at hx <;> cases hx
      refine build_ok (fun hi hs hx => ?_) hs hb hr hn hbuild
      obtain ⟨hs', hg', hv', -⟩ := ih less (Nat.lt_succ_self less) (room_concat hroom _) hi hs hx
      exact ⟨hs', hg', hv'⟩

/-- **Wiring keeps sessions.** -/
theorem wire_makes {room : ℕ} (hroom : last.beans.length ≤ room + stack.length) :
    Makes last store stack (wire room stack) := by
  intro lazy i c d hi hs hx
  obtain ⟨hs', hg', hv', -⟩ := wire_ok room hroom hi hs hx
  exact ⟨hs', hg', hv'⟩

/-! ### Where wiring breaks off -/

/-- The bean at `i` is refused before its making begins: shutdown was requested, or else it is under
construction already. -/
def Denied (last : Registry) (store : Store) (stack : List ℕ) (i : ℕ) (fault : Fault)
    (c : Container) : Prop :=
  fault = .cancelled ∧ c.cancelled = true ∨
    c.cancelled = false ∧ fault = cycle c stack i ∧
      ∃ rest, Standstill last store stack i rest fault c

theorem Denied.isOwn (h : Denied last store stack i fault c) (owner : String) :
    fault.IsOwn owner := by
  rcases h with ⟨rfl, -⟩ | ⟨-, rfl, -⟩ <;> exact trivial

/-- The making of the bean at `x` broke off in one of its own steps, with the beans of `path` below
it on the stack, each of which asks for the next one. The beans are not sound and this one fails, or
one is refused that it asks for. -/
structure Broken (last : Registry) (store : Store) (path : List ℕ) (x : ℕ) (cause : Fault)
    (d : Container) : Prop where
  chain : (path ++ [x]).IsChain fun a b => ∃ l, Hop last store d a l b
  quits : ∃ c, Quits last store path x c d
  slip : ∃ room m bean, last.beans.length ≤ room + (path ++ [x]).length ∧
    last.beans[x]? = some bean ∧ cause.IsOwn bean.id ∧
      Slip (wire room (path ++ [x])) x bean m cause d
  why : ¬ last.Sound store ∧ cause.isRefusal = false ∨
    ∃ j, Denied last store (path ++ [x]) j cause d

theorem annotate_own {owner : String} (h : fault.IsOwn owner) (stack : List ℕ) :
    annotate d stack fault = .wiring (d.registry.ids stack) fault := by
  cases fault with
  | wiring => cases h
  | _ => rfl

/-- How wiring fails: the bean is denied; or its making breaks off, or that of a bean on top of it,
and the fault has the frame of the stack at that moment. -/
inductive Failed (last : Registry) (store : Store) (stack : List ℕ) (i : ℕ) (c : Container)
    (fault : Fault) (d : Container) : Prop
  | denied : d = c → Denied last store stack i fault c → Failed last store stack i c fault d
  | broken {more : List ℕ} {x : ℕ} {cause : Fault} :
      fault = .wiring (last.ids (stack ++ more ++ [x])) cause →
      Broken last store (stack ++ more) x cause d → Grows stack (more ++ [x]) c d →
      Opens i c d → (∀ k ∈ (more ++ [x]).head?, k = i) → Failed last store stack i c fault d

theorem Failed.not_panic {reason : String}
    (h : Failed last store stack i c (.panic reason) d) : False := by
  cases h with
  | denied _ hd => exact hd.isOwn ""
  | broken he => cases he

theorem mustMake_failed (hs : Session last store stack c) (ht : Trail last store c stack lazy i)
    (hx : (mustMake stack lazy i).exec c = (.error fault, d)) :
    Failed last store stack i c fault d := by
  have hv := mustMake_verdict hs lazy i
  rw [hx] at hv
  cases hv with
  | cancelled hc => exact .denied rfl (.inl ⟨rfl, hc⟩)
  | circle hc hi hb hl =>
    exact .denied rfl (.inr ⟨hc, rfl, standstill_of_trail hs ht hi hb hl⟩)
  | dropped hb hn =>
    obtain ⟨bean, hb', ha⟩ := ht.alive
    rw [hb] at hb'
    cases hb'
    rw [ha] at hn
    cases hn

/-- The bean at `i` went on the stack and broke off by itself: the frame of its stack is put around
the fault. -/
theorem Failed.of_quits {cause : Fault} (ht : Trail last store c stack lazy i)
    (hquits : Quits last store stack i (c.note (.entered i)) d)
    (hslip : ∃ room m bean, last.beans.length ≤ room + (stack ++ [i]).length ∧
      last.beans[i]? = some bean ∧ cause.IsOwn bean.id ∧
        Slip (wire room (stack ++ [i])) i bean m cause d)
    (hwhy : ¬ last.Sound store ∧ cause.isRefusal = false ∨
      ∃ j, Denied last store (stack ++ [i]) j cause d) :
    Failed last store stack i c (annotate d (stack ++ [i]) cause) d := by
  have hgrows := (Container.grows_entered stack c i).trans hquits.grows
  have hbroken : Broken last store (stack ++ []) i cause d := by
    rw [List.append_nil]
    exact ⟨ht.chain_concat hgrows.stack, ⟨_, hquits⟩, hslip, hwhy⟩
  obtain ⟨-, -, bean, -, -, hown, -⟩ := hslip
  refine .broken ?_ hbroken hgrows ?_ fun k hk => (Option.some.inj hk).symm
  · rw [annotate_own hown, hquits.kept.alike.ids, List.append_nil]
  · exact Container.opens_of_prefix hquits.grows.entries

/-- The bean at `i` went on the stack and asked for another one that failed, with a frame: that is
left as it is. -/
theorem Failed.of_asked {more : List ℕ} {x : ℕ} {cause : Fault} {middle : Container}
    (hg : Grows stack [] (c.note (.entered i)) middle)
    (hb : Broken last store (stack ++ [i] ++ more) x cause d)
    (hg' : Grows (stack ++ [i]) (more ++ [x]) middle d) :
    Failed last store stack i c
      (.wiring (last.ids (stack ++ [i] ++ more ++ [x])) cause) d := by
  rw [← List.append_cons] at hb ⊢
  refine .broken rfl hb ?_ ?_ fun k hk => (Option.some.inj hk).symm
  · exact ((Container.grows_entered stack c i).trans hg).trans hg'.of_append
  · exact Container.opens_of_prefix (hg.entries.trans hg'.entries)

/-- A bean whose making begins fails by itself, or as a bean fails that it asks for. -/
theorem Failed.of_build {room : ℕ} {bean : Bean}
    (hroom : last.beans.length ≤ room + (stack ++ [i]).length)
    (ih : ∀ {lazy j m d fault}, Session last store (stack ++ [i]) m →
      Trail last store m (stack ++ [i]) lazy j →
      (wire room (stack ++ [i]) lazy j).exec m = (.error fault, d) →
        Failed last store (stack ++ [i]) j m fault d)
    (hs : Session last store stack c) (ht : Trail last store c stack lazy i)
    (hb : c.bean? i = some bean) (hr : bean.status = .resolved) (hi : i ∉ stack)
    (hx : (build (wire room (stack ++ [i])) i).exec c = (.error fault, d)) :
    Failed last store stack i c (annotate d (stack ++ [i]) fault) d := by
  have hfirst := (session_creating (hs.push hb hr hi) List.mem_concat_self hb hr).2.2
  obtain ⟨⟨m, hslip⟩, m', now, hg, hnow, hfails⟩ := build_error (wire_makes hroom) hs hb hr hi hx
  cases hfails with
  | own hsound hown hquits =>
    exact .of_quits ht (hquits.trans hg) ⟨room, m, bean, hroom, hfirst, hown.1, hslip⟩
      (.inl ⟨hsound, hown.2⟩)
  | @refused lazy' j hseeks hrefuses =>
    obtain ⟨middle, cause, hs', hg', hx', hf⟩ := hrefuses
    -- the bean that is refused is asked for by the one that is being made
    have hop : Hop last store middle i lazy' j :=
      ⟨now, (hg'.stack i List.mem_concat_self).trans hnow, hseeks⟩
    have hg1 : Grows stack [] (c.note (.entered i)) middle := hg.trans hg'.of_append
    have hgrows := (Container.grows_entered stack c i).trans hg1
    have hfailed := ih hs' (ht.push hgrows.stack hs' hop) hx'
    obtain rfl : fault = cause := by
      rcases hf with hf | ⟨reason, rfl⟩
      · exact hf
      · exact hfailed.not_panic.elim
    cases hfailed with
    | denied he hd =>
      subst he
      exact .of_quits ht (.of_session hs' hg1)
        ⟨room, m, bean, hroom, hfirst, hd.isOwn bean.id, hslip⟩ (.inr ⟨j, hd⟩)
    | broken he hb' hg2 =>
      subst he
      exact .of_asked hg1 hb' hg2

/-- **Wiring fails in the making of one bean**, and the fault has one frame, that of the stack
then. -/
theorem wire_error (room : ℕ) :
    ∀ {stack : List ℕ} {lazy : Bool} {i : ℕ} {c d : Container} {fault : Fault},
      last.beans.length ≤ room + stack.length → Session last store stack c →
      Trail last store c stack lazy i → (wire room stack lazy i).exec c = (.error fault, d) →
      Failed last store stack i c fault d := by
  induction room using Nat.strongRec with
  | ind room ih =>
    intro stack lazy i c d fault hroom hs ht hx
    rcases wire_inv hs hroom hx with ⟨_, he, hm⟩ | ⟨he, -⟩ | ⟨less, bean, rfl, hb, hr, hn, hx⟩
    · cases he
      exact mustMake_failed hs ht hm
    · cases he
    · have hroom' := room_concat hroom i
      rw [Run.exec_annotated] at hx
      rcases hbuild : (build (wire less (stack ++ [i])) i).exec c with ⟨cause | u, d'⟩ <;>
        rw [hbuild] at hx <;> cases hx
      exact .of_build hroom' (ih less (Nat.lt_succ_self less) hroom') hs ht hb hr hn hbuild

/-! ### Why wiring stops -/

/-- Why beans are refused: they are not sound, the wiring was cancelled, or it came to a standstill
with more beans on the stack, the one at `i` first. -/
def Stops (last : Registry) (store : Store) (stack : List ℕ) (i : ℕ) (c : Container)
    (fault : Fault) (d : Container) : Prop :=
  ¬ last.Sound store ∨ d.cancelled = true ∨ ∃ more x rest,
    Standstill last store (stack ++ more) x rest fault d ∧ Grows stack more c d ∧ Opens i c d ∧
      ∀ k ∈ more.head?, k = i

/-- Sound beans are refused at a standstill, unless the wiring was cancelled. -/
theorem Stops.standstill (h : Stops last store stack i c fault d) (hs : last.Sound store)
    (hn : d.cancelled = false) : ∃ more x rest,
      Standstill last store (stack ++ more) x rest fault d ∧ Grows stack more c d ∧ Opens i c d ∧
        ∀ k ∈ more.head?, k = i := by
  rcases h with h | h | h
  · exact absurd hs h
  · rw [hn] at h
    cases h
  · exact h

/-- **Wiring stops for no other reason than a cycle**, unless the beans are not sound or shutdown
was requested. -/
theorem Failed.stops (h : Failed last store stack i c fault d) :
    Stops last store stack i c fault d := by
  cases h with
  | denied he hd =>
    subst he
    rcases hd with ⟨-, hcancel⟩ | ⟨-, -, rest, hstill⟩
    · exact .inr (.inl hcancel)
    · refine .inr (.inr ⟨[], i, rest, ?_, .refl _ _, .refl _ _, nofun⟩)
      rw [List.append_nil]
      exact hstill
  | @broken more x cause he hb hg hopens hmore =>
    rcases hb.why with ⟨hsound, -⟩ | ⟨j, ⟨-, hcancel⟩ | ⟨-, -, rest, hstill⟩⟩
    · exact .inl hsound
    · exact .inr (.inl hcancel)
    · refine .inr (.inr ⟨more ++ [x], j, rest, ?_, hg, hopens, hmore⟩)
      -- the frame leaves the root of the fault as it is
      rw [← List.append_assoc]
      exact { hstill with root := he ▸ hstill.root }

/-- Why a container does not start: its beans are not sound, the wiring was cancelled, or they form
a cycle. -/
def Blames (last : Registry) (store : Store) (fault : Fault) (d : Container) : Prop :=
  ¬ last.Sound store ∨ d.cancelled = true ∨ last.Circular store fault

theorem Stops.blames (h : Stops last store stack i c fault d) : Blames last store fault d := by
  rcases h with h | h | ⟨more, x, rest, hstill, -⟩
  · exact .inl h
  · exact .inr (.inl h)
  · exact .inr (.inr hstill.circular)

end Wiring
end BeanContainer
