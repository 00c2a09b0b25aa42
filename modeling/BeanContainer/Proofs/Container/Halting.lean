/-
# Starts that are cancelled

Shutdown may be requested before the start of a container, or at any moment of it by the code of a
bean. From then on only the beans go on that are under construction at that moment; no other one is
entered. Where beans are left that take part, the start fails with a cancellation, unless one of those
under construction fails by itself before the next bean is asked for.

Key definitions: `Wiring.FailedAlone`, `Container.Halts`.
Key theorems: `Wiring.Failed.of_cancelled`, `Container.refresh_halts`.
-/
import BeanContainer.Proofs.Container.Log

namespace BeanContainer

variable {last : Registry} {store : Store} {c d : Container} {fault : Fault}

namespace Wiring

open Container (Grows)

/-- A step in the making of the bean at `x` failed, and not because another bean was refused. The
fault has the frame of the stack with this bean on top. -/
def FailedAlone (last : Registry) (x : ℕ) (fault : Fault) (d : Container) : Prop :=
  ∃ path bean cause room m, fault = .wiring (last.ids (path ++ [x])) cause ∧
    last.beans[x]? = some bean ∧ cause.IsFailure bean.id ∧
    last.beans.length ≤ room + (path ++ [x]).length ∧ Slip (wire room (path ++ [x])) x bean m cause d

/-- The bean on top did not come to its end. -/
theorem Quits.not_mem_order {path : List ℕ} {x : ℕ} (h : Quits last store path x c d) :
    x ∉ d.order := by
  obtain ⟨m, bean, new, hs, -, hchanges⟩ := h.left
  obtain ⟨now, hb⟩ := hs.bean_of_lt (hs.stack_lt x List.mem_concat_self)
  rw [hchanges.order]
  exact (hs.on_stack List.mem_concat_self hb).1

/-- **What fails once shutdown was requested** is cancelled, or is a bean that fails by itself while it
is under construction. -/
theorem Failed.of_cancelled {i : ℕ} (h : Failed last store [] i c fault d)
    (hd : d.cancelled = true) : fault.root = .cancelled ∨ ∃ x more, FailedAlone last x fault d ∧
      Grows [] (more ++ [x]) c d ∧ x ∉ d.order := by
  cases h with
  | denied he hdenied =>
    subst he
    rcases hdenied with ⟨rfl, -⟩ | ⟨hn, -⟩
    · exact .inl rfl
    · rw [hd] at hn
      cases hn
  | @broken more x cause he hb hg =>
    rcases hb.why with ⟨-, hrefusal⟩ | ⟨j, ⟨rfl, -⟩ | ⟨hn, -⟩⟩
    · obtain ⟨room, m, bean, hroom, hbean, hown, hslip⟩ := hb.slip
      obtain ⟨_, hquits⟩ := hb.quits
      exact .inr ⟨x, more, ⟨more, bean, cause, room, m, he, hbean, ⟨hown, hrefusal⟩, hroom, hslip⟩,
        hg, hquits.not_mem_order⟩
    · rw [he]
      exact .inl rfl
    · rw [hd] at hn
      cases hn

end Wiring

namespace Container

/-- What is left of a start from `c`, which ends in `d`, at a moment at which the log is `front` and
the beans of `stack` are under construction: no other bean is made. If one of them takes part, the
start fails, with a cancellation or with a failure of a bean on the stack. -/
structure Halts (c : Container) (stack : List ℕ) (front back : List Event)
    (result : Except Fault Unit) (d : Container) : Prop where
  /-- The making of no bean begins. -/
  entered : ∀ i, .entered i ∉ back
  /-- Only beans on the stack are constructed, run hooks, or come to their end. -/
  stays : ∀ i, (.initialized i ∈ back ∨ ∃ stage step, .called stage i step ∈ back) → i ∈ stack
  /-- Beans that are neither on the stack nor initialized stay as they were decided. -/
  untouched : ∀ last, c.registry.resolve c.store = .ok last →
    ∀ i ∉ stack, .initialized i ∉ front → d.bean? i = last.beans[i]?
  fails : ∀ last, c.registry.resolve c.store = .ok last →
    ∀ i ∉ stack, .initialized i ∉ front →
      (∃ bean, last.beans[i]? = some bean ∧ bean.isAlive = true) →
        ∃ fault, result = .error fault ∧
          (fault.root = .cancelled ∨ ∃ x ∈ stack, Wiring.FailedAlone last x fault d)

variable {log front back : List Event} {stack : List ℕ} {result : Except Fault Unit}

/-- A bean that was entered and did not come to its end is on the stack. -/
theorem Logs.mem_stack {more : List ℕ} {x : ℕ} (h : Logs [] log stack c d)
    (hg : Grows [] more c d) (hx : x ∈ more) (hn : x ∉ d.order) : x ∈ stack := by
  obtain ⟨entered, made, he, -, hp⟩ := hg.steps
  rw [h.entries] at he
  have hentered : .entered x ∈ log := by
    rw [← mem_enteredBeans, List.append_cancel_left he]
    exact hp.mem_iff.mpr (List.mem_append_left _ hx)
  have hafter := h.allowed.mem_after (.inr hentered)
  rw [h.moment] at hafter
  refine hafter.resolve_right fun hm => hn ?_
  rw [h.order]
  exact List.mem_append_right _ (mem_initializedBeans.mpr hm)

/-- Beans are left at a moment after a request of shutdown: the making of all beans fails. -/
theorem wireBeans_fails {start done : Container} (hs : Session last store [] start)
    (ho : start.order = []) (hlog : Logs [] (front ++ back) stack start done)
    (hh : ((start.moment []).after front).halted = true) {i : ℕ}
    (hi : i ∉ ((start.moment []).after front).stack) (hn : .initialized i ∉ front)
    (ha : ∃ bean, last.beans[i]? = some bean ∧ bean.isAlive = true)
    (hx : wireBeans.exec start = (result, done)) :
    ∃ fault, result = .error fault ∧ (fault.root = .cancelled ∨
      ∃ x ∈ ((start.moment []).after front).stack, Wiring.FailedAlone last x fault done) := by
  have hback := (Moment.allows_append.mp hlog.allowed).2
  rcases result with fault | ⟨⟩
  · refine ⟨fault, rfl, ?_⟩
    have hd : done.cancelled = true := by
      have hafter := hlog.moment
      rw [Moment.after_append] at hafter
      have hhalted : (((start.moment []).after front).after back).halted = true :=
        Moment.halted_after.mpr (.inl hh)
      rwa [hafter] at hhalted
    rw [exec_wireBeans hs] at hx
    obtain ⟨_, j, _, c', -, -, hg, -, -, hfailed⟩ := wireRoots_error (fun i => List.mem_range.mp) hs hx
    refine (hfailed.of_cancelled hd).imp_right ?_
    rintro ⟨x, more, halone, hg', hx⟩
    have htop : x ∈ stack := hlog.mem_stack (hg.trans hg') (by simp) hx
    -- what is on the stack at the end was there at the moment, as nothing is entered any more
    have hafter : x ∈ (((start.moment []).after front).after back).stack := by
      rw [← Moment.after_append, hlog.moment]
      exact htop
    exact ⟨x, (Moment.mem_stack_of_after hafter).resolve_right (hback.not_entered hh), halone⟩
  · obtain ⟨hs', -, hp⟩ := wireBeans_ok hs hx
    obtain ⟨bean, hb, halive⟩ := ha
    have hm := hs'.present_iff.mp (hp i bean hb halive)
    rw [hlog.order, ho, List.nil_append, mem_initializedBeans] at hm
    -- it came to its end after the moment, so it was on the stack
    have hlate := (List.mem_append.mp hm).resolve_left hn
    rcases hback.mem_stack (.inl hlate) with hstack | hentered
    · exact absurd hstack hi
    · exact absurd hentered (hback.not_entered hh)

/-- The making of all beans stops at a request of shutdown. -/
theorem wireBeans_halts (hc : c.Fresh) (hr : c.registry.resolve c.store = .ok last)
    (hx : wireBeans.exec { c with phase := .refreshing, registry := last } = (result, d)) :
    ∃ log, d.events = c.events ++ log ∧ ∀ front back, log = front ++ back →
      (c.cancelled = true ∨ .shutdown ∈ front) →
        Halts c ((c.moment []).after front).stack front back result d := by
  obtain ⟨log, stack, hlog, -⟩ := logged_wireBeans { c with phase := .refreshing, registry := last }
  rw [hx] at hlog
  refine ⟨log, hlog.events, ?_⟩
  rintro front back rfl hrequest
  obtain ⟨hfront, hback⟩ := Moment.allows_append.mp hlog.allowed
  have hh : ((c.moment []).after front).halted = true := Moment.halted_after.mpr hrequest
  refine ⟨fun i => hback.not_entered hh, fun i hi => ?_, fun last' hr' i hi hn => ?_,
    fun last' hr' i hi hn ha => ?_⟩
  · exact (hback.mem_stack hi).resolve_right (hback.not_entered hh)
  · rw [hr] at hr'
    cases hr'
    refine hlog.untouched i List.not_mem_nil fun hm => ?_
    rcases List.mem_append.mp hm with hm | hm
    · exact (hfront.mem_after (.inr hm)).elim hi hn
    · exact hback.not_entered hh hm
  · rw [hr] at hr'
    cases hr'
    exact (wireBeans_fails (session_start hc hr) hc.order hlog hh hi hn ha hx :)

/-- **A request of shutdown stops the making of beans.** At every moment of a start after it, no bean
is made any more but those on the stack at that moment. If a bean that takes part is neither there nor
initialized, the start fails: it is cancelled, or a bean on the stack fails by itself. -/
theorem refresh_halts (hc : c.Fresh) (hx : refresh.exec c = (result, d)) :
    ∃ log, d.events = c.events ++ log ∧ ∀ front back, log = front ++ back →
      (c.cancelled = true ∨ .shutdown ∈ front) →
        Halts c ((c.moment []).after front).stack front back result d := by
  rw [exec_refresh] at hx
  rcases hr : c.registry.resolve c.store with cause | last <;> rw [hr] at hx
  · cases hx
    refine ⟨[], (List.append_nil _).symm, fun front back he _ => ?_⟩
    obtain ⟨rfl, rfl⟩ := List.append_eq_nil_iff.mp he.symm
    refine ⟨nofun, nofun, fun last hr' => ?_, fun last hr' => ?_⟩ <;> rw [hr] at hr' <;> cases hr'
  · dsimp only at hx
    rcases hw : wireBeans.exec { c with phase := .refreshing, registry := last }
      with ⟨fault | u, done⟩ <;> rw [hw] at hx <;> cases hx
    · exact wireBeans_halts hc hr hw
    · obtain ⟨log, hevents, hhalts⟩ := wireBeans_halts hc hr hw
      refine ⟨log, hevents, fun front back he hrequest => ?_⟩
      have h := hhalts front back he hrequest
      refine ⟨h.entered, h.stays, h.untouched, fun last' hr' i hi hn ha => ?_⟩
      obtain ⟨_, hfails, -⟩ := h.fails last' hr' i hi hn ha
      cases hfails

/-- Two beans. The constructor of the first one requests shutdown. -/
def leaving : List Definition :=
  [.ofSource ⟨"A"⟩ "A" (.constructor ⟨"A", [], ⟨"A"⟩, fun _ => .ok .unit⟩ ⟨[], []⟩ [.shutdown]),
    .ofSource ⟨"B"⟩ "B" (.object .unit)]

theorem refresh_halts_leaving : ∃ last d,
    refresh.exec (leaving.foldl register (ofStore .empty)) = (.error .cancelled, d) ∧
      (leaving.foldl register (ofStore .empty)).registry.resolve .empty = .ok last ∧
      d.events = [.entered 0, .called .construct 0 0, .shutdown] ++ [.initialized 0] ∧
      Halts (leaving.foldl register (ofStore .empty)) [0]
        [.entered 0, .called .construct 0 0, .shutdown] [.initialized 0] (.error .cancelled) d ∧
      d.bean? 1 = last.beans[1]? := by
  have hresult : (refresh.exec (leaving.foldl register (ofStore .empty))).1 = .error .cancelled := by
    cbv
  have hcalled : (refresh.exec (leaving.foldl register (ofStore .empty))).2.events =
      [.entered 0, .called .construct 0 0, .shutdown] ++ [.initialized 0] := by cbv
  have hdecided : ((leaving.foldl register (ofStore .empty)).registry.resolve
      .empty).toOption.isSome = true := by cbv
  obtain ⟨log, hevents, hhalts⟩ :=
    refresh_halts (fresh_register .empty leaving) (Prod.ext hresult rfl)
  have hlog : log = [.entered 0, .called .construct 0 0, .shutdown] ++ [.initialized 0] :=
    hevents.symm.trans hcalled
  have h : Halts (leaving.foldl register (ofStore .empty)) [0] _ _ _ _ :=
    hhalts _ _ hlog (.inr (by simp))
  rcases hr : (leaving.foldl register (ofStore .empty)).registry.resolve .empty with fault | last
  · rw [hr] at hdecided
    cases hdecided
  · have hleft := h.untouched last hr 1 (by simp) (by simp)
    exact ⟨last, _, Prod.ext hresult rfl, rfl, hcalled, h, hleft⟩

end Container
end BeanContainer
