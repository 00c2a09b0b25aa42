/-
# The path of a fault

When the making of beans fails, the fault has one frame, put around it where it arose. Its path holds
the beans whose making began and did not come to its end, in the order in which it began: from one
that was made for its own sake, each asked for the next one, and the last one failed by itself.
Nothing is done after that: marks that are put behind each step that fails (`Probe.mark`) stand at
the end of what happened.

Key definitions: `Container.unfinished`, `Wiring.Traced`, `Wake.marks`.
Key theorems: `Session.unfinished`, `Wiring.Failed.traced`, `Container.probedRefresh_marked`,
`Container.refresh_path`.
-/
import BeanContainer.Proofs.Container.Lockstep

namespace BeanContainer

variable {last : Registry} {store : Store} {stack : List ℕ} {c d : Container} {fault : Fault}

/-! ### Beans whose making did not come to its end -/

/-- The beans whose making began and did not come to its end, in the order in which it began. -/
def Container.unfinished (c : Container) : List ℕ := c.entries.filter (· ∉ c.order)

/-- In a session these are the beans on the stack. -/
theorem Session.unfinished (hs : Session last store stack c)
    (hp : c.entries.Perm (stack ++ c.order)) : c.unfinished = stack := by
  have hstack : stack.filter (· ∉ c.order) = stack := by
    refine List.filter_eq_self.mpr fun i hi => decide_eq_true ?_
    obtain ⟨bean, hb⟩ := hs.bean_of_lt (hs.stack_lt i hi)
    exact (hs.on_stack hi hb).1
  have horder : c.order.filter (· ∉ c.order) = [] :=
    List.filter_eq_nil_iff.mpr fun i hi => by simpa using hi
  have hsub : stack.Sublist c.unfinished := by
    have hf := hs.entered.filter (· ∉ c.order)
    rwa [hstack] at hf
  have hlength := (hp.filter (· ∉ c.order)).length_eq
  rw [List.filter_append, hstack, horder, List.append_nil] at hlength
  exact (hsub.eq_of_length hlength.symm).symm

namespace Wiring

/-- The making of the bean on top broke off with the beans of `path` below it. -/
theorem Quits.unfinished {path : List ℕ} {x : ℕ} (h : Quits last store path x c d)
    (hp : d.entries.Perm (path ++ [x] ++ d.order)) : d.unfinished = path ++ [x] := by
  obtain ⟨m, bean, new, hs, -, hc⟩ := h.left
  unfold Container.unfinished
  rw [hc.entries, hc.order] at hp ⊢
  exact hs.unfinished hp

/-- What the fault says of a start that ended in `d`: it arose in the making of the bean at `x`, with
those of `path` before it. -/
structure Traced (last : Registry) (store : Store) (path : List ℕ) (x : ℕ) (fault : Fault)
    (d : Container) : Prop where
  /-- The making of these beans began and did not come to its end. -/
  unfinished : d.unfinished = path ++ [x]
  /-- The first one takes part, and was made after all of those that are registered before it. -/
  first : ∀ k ∈ (path ++ [x]).head?, (∃ bean, last.beans[k]? = some bean ∧ bean.isAlive = true) ∧
    ∀ j < k, (∃ bean, last.beans[j]? = some bean ∧ bean.isAlive = true) → j ∈ d.order
  /-- Each one asked for the next one: as one that it depends on, as an argument of its constructor,
  or for a field. -/
  chain : (path ++ [x]).IsChain fun a b => ∃ lazy, Hop last store d a lazy b
  /-- There is one frame around the fault, and inside it a fault of the last one: a step in its
  making failed. -/
  cause : ∃ cause bean room m, fault = .wiring (last.ids (path ++ [x])) cause ∧
    last.beans[x]? = some bean ∧ cause.IsOwn bean.id ∧
    last.beans.length ≤ room + (path ++ [x]).length ∧
    Slip (wire room (path ++ [x])) x bean m cause d

/-- **Wiring that fails with an empty stack at first was cancelled, or the fault has a path.** -/
theorem Failed.traced {i : ℕ} (h : Failed last store [] i c fault d) (hs : Session last store [] c)
    (hp : c.entries.Perm c.order)
    (hi : ∃ bean, last.beans[i]? = some bean ∧ bean.isAlive = true)
    (hbefore : ∀ j < i, (∃ bean, last.beans[j]? = some bean ∧ bean.isAlive = true) →
      j ∈ c.order) :
    (fault = .cancelled ∧ d.cancelled = true ∧ d.unfinished = []) ∨
      ∃ path x, Traced last store path x fault d := by
  cases h with
  | denied he hd =>
    subst he
    rcases hd with ⟨rfl, hcancel⟩ | ⟨-, -, rest, hstill⟩
    · exact .inl ⟨rfl, hcancel, hs.unfinished hp⟩
    · -- nothing is met again on an empty stack
      cases List.suffix_nil.mp hstill.top
  | @broken path x cause he hb hg _ hfirst =>
    obtain ⟨c', hquits⟩ := hb.quits
    obtain ⟨room, m, bean, hroom, hbean, hown, hslip⟩ := hb.slip
    refine .inr ⟨path, x, hquits.unfinished (hg.perm hp), fun k hk => ?_, hb.chain,
      cause, bean, room, m, he, hbean, hown, hroom, hslip⟩
    obtain rfl := hfirst k hk
    exact ⟨hi, fun j hj hj' => hg.order.subset (hbefore j hj hj')⟩

end Wiring

/-! ### Marks -/

/-- A failure leaves marks behind. -/
def Wake.marks (event : Event) : Wake where
  late d d' := ∃ n, d' = { d with events := d.events ++ List.replicate n event }
  refl d := ⟨0, by simp⟩
  registry := by
    rintro d _ ⟨n, rfl⟩
    rfl

theorem Wake.admits_mark (event : Event) : (marks event).Admits last store (.mark event) := by
  intro α c run other hc hr
  unfold InStep at hr ⊢
  rw [Probe.exec_mark]
  generalize run.exec c = plain, other.exec c = marked at hr
  cases hr with
  | done hd => exact .done hd
  | @failed fault d d' hl =>
    obtain ⟨n, rfl⟩ := hl
    refine .failed ⟨n + 1, ?_⟩
    unfold Container.note
    rw [List.replicate_succ', List.append_assoc]

namespace Container

/-- Where the making of a bean fails, there is a mark. -/
theorem probedRoot_marked {event : Event} {room i : ℕ}
    (hx : (Wiring.probedRoot (.mark event) room i).exec c = (.error fault, d)) :
    event ∈ d.events := by
  have hmark : ∀ {run : Run Unit}, ((Probe.mark event).around run).exec c = (.error fault, d) →
      event ∈ d.events := by
    intro run hx
    rw [Probe.exec_mark] at hx
    rcases hr : run.exec c with ⟨cause | ⟨⟩, m⟩ <;> rw [hr] at hx <;> cases hx
    exact List.mem_concat_self
  rcases hb : c.bean? i with _ | bean
  · unfold Wiring.probedRoot Wiring.withBean at hx
    rw [Run.exec_get_bind, hb] at hx
    cases hx
  · unfold Wiring.probedRoot at hx
    rw [Run.exec_withBean _ hb] at hx
    split at hx
    · cases room with
      | zero => exact hmark hx
      | succ room => exact hmark hx
    · cases hx

theorem probedRefresh_marked {event : Event} (hr : c.registry.resolve c.store = .ok last)
    (hx : (probedRefresh (.mark event)).exec c = (.error fault, d)) : event ∈ d.events := by
  have hstart : (probedRefresh (.mark event)).exec c = _ := exec_startWith (probedBeans _) c
  rw [hstart, hr] at hx
  dsimp only at hx
  rcases hw : (probedBeans (.mark event)).exec { c with phase := .refreshing, registry := last }
    with ⟨fault' | u, done⟩ <;> rw [hw] at hx <;> cases hx
  unfold probedBeans at hw
  rw [Run.exec_get_bind] at hw
  obtain ⟨front, i, back, m, -, -, hone⟩ := Run.forM_error hw
  exact probedRoot_marked hone

/-! ### Starts that fail -/

/-- The beans before a position, where all positions are gone through. -/
theorem mem_of_range_eq {n i j : ℕ} {front back : List ℕ}
    (h : List.range n = front ++ i :: back) (hj : j < i) : j ∈ front := by
  have hi : i < n := List.mem_range.mp (by rw [h]; simp)
  have hm : j ∈ front ++ i :: back := by
    rw [← h]
    exact List.mem_range.mpr (hj.trans hi)
  rcases List.mem_append.mp hm with hm | hm
  · exact hm
  · have hsorted : (front ++ i :: back).Pairwise (· < ·) := h ▸ List.pairwise_lt_range
    rcases List.mem_cons.mp hm with rfl | hm
    · omega
    · have := List.rel_of_pairwise_cons (List.pairwise_append.mp hsorted).2.1 hm
      omega

/-- **A fault has one true path.** A start whose beans are resolved fails with the fault of a
cancellation, when no bean is being made; or the fault has one frame, with the path of the beans that
are being made, and is otherwise one of the last of them. Nothing is done after the failure: with a
mark behind each step that fails, the same things happen, then come the marks. -/
theorem refresh_path (hc : c.Fresh) (he : c.entries = [])
    (hr : c.registry.resolve c.store = .ok last) (hx : refresh.exec c = (.error fault, d)) :
    ((fault = .cancelled ∧ d.cancelled = true ∧ d.unfinished = []) ∨
      ∃ path x, Wiring.Traced last c.store path x fault d) ∧
    ∀ event ∉ d.events, ∃ n, (probedRefresh (.mark event)).exec c =
      (.error fault, { d with events := d.events ++ List.replicate (n + 1) event }) := by
  constructor
  · have hs := session_start hc hr
    have hw := exec_refresh_error hr hx
    rw [exec_wireBeans hs] at hw
    obtain ⟨front, i, back, c', hrange, hs', hg, hp, halive, hfailed⟩ :=
      wireRoots_error (fun i => List.mem_range.mp) hs hw
    have hperm : c'.entries.Perm c'.order := by
      refine hg.perm ?_
      change c.entries.Perm c.order
      rw [he, hc.order]
    refine hfailed.traced hs' hperm halive fun j hj ⟨bean, hb, ha⟩ => ?_
    exact hs'.present_iff.mp (hp j (mem_of_range_eq hrange hj) bean hb ha)
  · intro event hevent
    obtain ⟨d', ⟨n, rfl⟩, hmarked⟩ := (refresh_inStep (Wake.admits_mark event) hr).2 fault d hx
    have hm := probedRefresh_marked hr hmarked
    cases n with
    | zero =>
      -- the making that failed left a mark
      rw [List.replicate_zero, List.append_nil] at hm
      exact absurd hm hevent
    | succ n => exact ⟨n, hmarked⟩

/-- A bean that is constructed with another one, whose constructor fails. -/
def spoiled : List Definition :=
  [constructedWith "A" "B" .one, .ofSource ⟨"B"⟩ "B" (.constructor
    ⟨"B", [], ⟨"B"⟩, fun _ => .error (.failed "no disk")⟩ ⟨[], []⟩ [])]

theorem refresh_path_spoiled : ∃ last d,
    refresh.exec (spoiled.foldl register (ofStore .empty)) =
      (.error (.wiring ["A", "B"] (.lifecycle "B" .construct "no disk")), d) ∧
    Wiring.Traced last .empty [0] 1
      (.wiring ["A", "B"] (.lifecycle "B" .construct "no disk")) d ∧
    ∃ n, (probedRefresh (.mark .waiting)).exec (spoiled.foldl register (ofStore .empty)) =
      (.error (.wiring ["A", "B"] (.lifecycle "B" .construct "no disk")),
        { d with events := d.events ++ List.replicate (n + 1) .waiting }) := by
  have hfails : (refresh.exec (spoiled.foldl register (ofStore .empty))).1 =
      .error (.wiring ["A", "B"] (.lifecycle "B" .construct "no disk")) := by cbv
  have hevents : (refresh.exec (spoiled.foldl register (ofStore .empty))).2.events =
      [.entered 0, .entered 1, .called .construct 1 0] := by cbv
  have hunfinished : (refresh.exec (spoiled.foldl register (ofStore .empty))).2.unfinished =
      [0] ++ [1] := by cbv
  rcases hr : (spoiled.foldl register (ofStore .empty)).registry.resolve .empty with fault | last
  · have hresolve : ((spoiled.foldl register (ofStore .empty)).registry.resolve
        .empty).toOption.isSome = true := by cbv
    rw [hr] at hresolve
    cases hresolve
  · obtain ⟨hpath, hmarks⟩ := refresh_path (fresh_register .empty spoiled) rfl hr
      (Prod.ext hfails rfl)
    have hwaiting : Event.waiting ∉
        (refresh.exec (spoiled.foldl register (ofStore .empty))).2.events := by
      rw [hevents]
      simp
    rcases hpath with ⟨hcancelled, -⟩ | ⟨path, x, htraced⟩
    · cases hcancelled
    · obtain ⟨rfl, hx⟩ := List.append_inj' (htraced.unfinished.symm.trans hunfinished) rfl
      cases hx
      exact ⟨last, _, Prod.ext hfails rfl, htraced, hmarks .waiting hwaiting⟩

end Container
end BeanContainer
