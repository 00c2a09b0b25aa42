/-
# Watched wiring

Whenever `Wiring.wire` is entered, the container is in order: the beans on the stack are those under
construction and those that wait for what they depend on, and the slots, the order and the statuses
say the same about all beans (`Wiring.Orderly`). To say so of every entry of a run, the wiring is
watched: an alarm goes off at an entry where the container is not in order, and where a bean is to
be made that the stack has no room for (`Wiring.watched`). Whatever the alarm does, the watched
start of a container is the same as the plain one, so it never goes off. On the way the faults are
followed, and none of them is internal.

Key definitions: `Wiring.Orderly`, `Wiring.watched`, `Container.watchedRefresh`.
Key theorems: `Wiring.orderly_of_session`, `Wiring.shadows_watched`, `Container.refresh_orderly`.
-/
import BeanContainer.Proofs.Container.Shadow

namespace BeanContainer

variable {c d : Container} {last : Registry} {store : Store} {stack : List ℕ} {i : ℕ}

/-- The bean is constructed, or its fields are being wired. -/
def Bean.isUnderway (bean : Bean) : Bool :=
  bean.status == .creating || bean.status == .created

namespace Wiring

/-! ### Order -/

/-- The container is in order while the beans on the stack are being made. -/
structure Orderly (stack : List ℕ) (c : Container) : Prop where
  stack_nodup : stack.Nodup
  stack_le : stack.length ≤ c.registry.beans.length
  /-- A bean on the stack is under construction, or waits for those that it depends on. -/
  on_stack : ∀ i ∈ stack,
    c.registry.satisfies (fun bean => bean.status == .resolved || bean.isUnderway) i = true
  underway : ∀ i ∈ c.registry.satisfying Bean.isUnderway, i ∈ stack
  not_wired : ∀ bean ∈ c.registry.beans, bean.status ≠ .wired
  /-- The slots are those of the initialized beans. -/
  slots : ∀ bean ∈ c.registry.beans, bean.component.isSome = true ↔ bean.status = .initialized
  /-- The order holds the initialized beans, each once. -/
  order : c.order.Perm (c.registry.satisfying (·.status == .initialized))

instance (stack : List ℕ) (c : Container) : Decidable (Orderly stack c) :=
  decidable_of_iff
    (stack.Nodup ∧ stack.length ≤ c.registry.beans.length ∧
      (∀ i ∈ stack,
        c.registry.satisfies (fun bean => bean.status == .resolved || bean.isUnderway) i = true) ∧
      (∀ i ∈ c.registry.satisfying Bean.isUnderway, i ∈ stack) ∧
      (∀ bean ∈ c.registry.beans, bean.status ≠ .wired) ∧
      (∀ bean ∈ c.registry.beans,
        bean.component.isSome = true ↔ bean.status = .initialized) ∧
      c.order.Perm (c.registry.satisfying (·.status == .initialized)))
    ⟨fun ⟨h1, h2, h3, h4, h5, h6, h7⟩ => ⟨h1, h2, h3, h4, h5, h6, h7⟩,
      fun h => ⟨h.stack_nodup, h.stack_le, h.on_stack, h.underway, h.not_wired, h.slots, h.order⟩⟩

/-- **Sessions are in order.** -/
theorem orderly_of_session (hs : Session last store stack c) : Orderly stack c where
  stack_nodup := hs.stack_nodup
  stack_le := by
    have hsub : stack ⊆ List.range c.registry.beans.length := by
      intro i hi
      rw [List.mem_range, hs.kept.alike.length]
      exact hs.stack_lt i hi
    have hle := (hs.stack_nodup.subperm hsub).length_le
    rwa [List.length_range] at hle
  on_stack i hi := by
    obtain ⟨bean, hb⟩ := hs.bean_of_lt (hs.stack_lt i hi)
    rw [Registry.satisfies_eq hb]
    unfold Bean.isUnderway
    cases hs.fits i bean hb with
    | waiting _ status => simp [status]
    | dropped _ _ hn | made _ hn => exact absurd hi hn
    | making status => rcases status with status | status <;> simp [status]
  underway i hi := by
    obtain ⟨bean, hb, hu⟩ := Registry.mem_satisfying.mp hi
    unfold Bean.isUnderway at hu
    cases hs.fits i bean hb with
    | making _ hi => exact hi
    | waiting _ status | dropped _ status | made status => simp [status] at hu
  not_wired bean hm := by
    obtain ⟨i, hb⟩ := List.mem_iff_getElem?.mp hm
    cases hs.fits i bean hb with
    | waiting _ status | dropped _ status | made status => simp [status]
    | making status => rcases status with status | status <;> simp [status]
  slots bean hm := by
    obtain ⟨i, hb⟩ := List.mem_iff_getElem?.mp hm
    cases hs.fits i bean hb with
    | waiting first status | dropped first status =>
      simp [status, (hs.ready.untouched i bean first).2]
    | making status _ _ component =>
      rcases status with status | status <;> simp [status, component]
    | made status _ _ component => simp [status, component]
  order := by
    rw [List.perm_ext_iff_of_nodup hs.order_nodup (Registry.nodup_satisfying _ _)]
    intro i
    rw [Registry.mem_satisfying]
    constructor
    · intro hi
      obtain ⟨bean, hb, status, -⟩ := hs.made_of_mem hi
      exact ⟨bean, hb, beq_iff_eq.mpr status⟩
    · rintro ⟨bean, hb, hi⟩
      rw [beq_iff_eq] at hi
      cases hs.fits i bean hb with
      | made _ _ order => exact order
      | waiting _ status | dropped _ status =>
        rw [hi] at status
        cases status
      | making status =>
        rw [hi] at status
        rcases status with status | status <;> cases status

/-! ### The watch -/

/-- Raises the alarm unless the container is in order. -/
def watch (alarm : Run Unit) (stack : List ℕ) : Run Unit := do
  if Orderly stack (← get) then return else alarm

/-- The making of a bean as `wire` does it, watched at each entry. The alarm also goes off where
there is no room for a bean that is to be made. -/
def watched (alarm : Run Unit) : (room : ℕ) → (stack : List ℕ) → Maker
  | 0, stack, lazy, index => do
    watch alarm stack
    if ← mustMake stack lazy index then alarm
  | room + 1, stack, lazy, index => do
    watch alarm stack
    if ← mustMake stack lazy index then
      annotated (stack ++ [index]) (build (watched alarm room (stack ++ [index])) index)

/-- The making of the bean at a position, watched, unless it was dropped. -/
def watchedRoot (alarm : Run Unit) (room : ℕ) (index : ℕ) : Run Unit :=
  withBean index fun bean => do
    if bean.isAlive then watched alarm room [] false index

/-! ### No alarm -/

theorem twins_watch {terms : Terms last} {run other alarm : Run Unit}
    (hs : Session last store stack c) (h : Run.Twins terms c run other) :
    Run.Twins terms c run (watch alarm stack >>= fun _ => other) := by
  have hwatch : (watch alarm stack).exec c = (.ok (), c) := by
    unfold watch
    rw [Run.exec_get_bind, if_pos (orderly_of_session hs)]
    rfl
  exact h.congr rfl (Run.exec_bind_ok hwatch)

/-- **The watched maker does what the maker does**, whatever the alarm, once there is room for all
beans. -/
theorem shadows_watched {terms : Terms last} (hp : last.Provided) (alarm : Run Unit) (room' : ℕ) :
    ∀ {stack : List ℕ} {room : ℕ}, last.beans.length ≤ room + stack.length →
      last.beans.length ≤ room' + stack.length →
        Shadows terms store stack (wire room stack) (watched alarm room' stack) := by
  induction room' with
  | zero =>
    intro stack room hroom hfull lazy i c ⟨bean, hfirst, ha⟩ hs
    exact twins_watch hs (twins_full hroom hfull hs hfirst ha _)
  | succ room' ih =>
    intro stack room hroom hroom' lazy i c ⟨bean, hfirst, ha⟩ hs
    refine twins_watch hs ?_
    exact twins_wire hroom hs hfirst ha hp (ih · (room_concat hroom' i)) fun _ => id

end Wiring

namespace Container

/-- Makes all beans that take part, watched. -/
def watchedBeans (alarm : Run Unit) (room : ℕ) : Run Unit := do
  (← get).registry.indices.forM (Wiring.watchedRoot alarm room)

/-- The start of a container in which the making of beans is watched. -/
def watchedRefresh (alarm : Run Unit) (room : ℕ) : Run Unit :=
  startWith (watchedBeans alarm room)

/-- The beans are made in the same way when the making is watched. -/
theorem twins_watchedBeans {terms : Terms last} (hs : Session last store [] c)
    (hp : last.Provided) (alarm : Run Unit) {room : ℕ} (hroom : last.beans.length ≤ room) :
    Run.Twins terms c wireBeans (watchedBeans alarm room) := by
  refine twins_beans hs (Wiring.shadows_watched hp alarm room (Nat.le_add_right _ _) ?_)
  exact hroom

/-- **Whenever the making of a bean is entered, the container is in order.** Watched by any alarm,
and with room for at least as many beans as there are, the start of a container is the same as
without: so the alarm never goes off, and the stack never holds more beans than there are. The
making of the beans does not fail with an internal fault; nor is one the answer to what user code or
a probe asks meanwhile. -/
theorem refresh_orderly (hc : c.Fresh) :
    (∀ alarm room, c.registry.beans.length ≤ room →
      (watchedRefresh alarm room).exec c = refresh.exec c) ∧
    (∀ last, c.registry.resolve c.store = .ok last → Ordinary (refresh.exec c).1) ∧
    ∀ d : Container, d.phase = .refreshing →
      (∀ request, Ordinary ((Context.ask request).exec d).1) ∧
      ∀ probe : Condition, Ordinary (probe.decideNow.exec d).1 := by
  have hprobe : ∀ (d : Container) (probe : Condition), Ordinary (probe.decideNow.exec d).1 := by
    intro d probe
    rw [probe.exec_decideNow]
    exact d.registry.ordinary_holds d.store probe
  have hstart : ∀ last, c.registry.resolve c.store = .ok last → ∀ alarm room,
      c.registry.beans.length ≤ room →
        Run.Twins (.all last) { c with phase := .refreshing, registry := last } wireBeans
          (watchedBeans alarm room) := by
    intro last hr alarm room hroom
    obtain ⟨hp, hlength⟩ := provided_of_resolve hr
    exact twins_watchedBeans (session_start hc hr) hp alarm (hlength ▸ hroom)
  refine ⟨fun alarm room hroom => ?_, fun last hr => ?_, fun d hd => ⟨fun request => ?_, ?_⟩⟩
  · exact exec_startWith_eq fun last hr => (hstart last hr alarm room hroom).same_all
  · have ho := (hstart last hr (pure ()) _ le_rfl).ordinary
    rw [exec_refresh, hr]
    dsimp only
    rcases hw : wireBeans.exec { c with phase := .refreshing, registry := last } with ⟨fault | u, d⟩
    · rw [hw] at ho
      exact ho
    · trivial
  · exact Context.ordinary_ask request hd
  · exact hprobe d

theorem refresh_orderly_couple :
    (∀ alarm room, 2 ≤ room →
      (watchedRefresh alarm room).exec ((couple .one).foldl register (ofStore .empty)) =
        refresh.exec ((couple .one).foldl register (ofStore .empty))) ∧
    (refresh.exec ((couple .one).foldl register (ofStore .empty))).1 =
      .error (.wiring ["A", "B"] (.cycle ["A", "B", "A"])) ∧
    Ordinary (refresh.exec ((couple .one).foldl register (ofStore .empty))).1 := by
  have hr : ((couple .one).foldl register (ofStore .empty)).registry.resolve .empty =
      .ok (decidedCouple .one) := by cbv
  have hcycle : (refresh.exec ((couple .one).foldl register (ofStore .empty))).1 =
      .error (.wiring ["A", "B"] (.cycle ["A", "B", "A"])) := by cbv
  obtain ⟨hwatched, hordinary, -⟩ := refresh_orderly (fresh_register .empty (couple .one))
  exact ⟨fun alarm room hroom => hwatched alarm room hroom, hcycle, hordinary _ hr⟩

/-- With less room than there are beans the alarm goes off: the first bean depends on the third. -/
example : ((watchedRefresh (throw .cancelled) 1).exec (trio.foldl register (ofStore .empty))).1 =
    .error (.wiring ["A"] .cancelled) := by cbv

end Container
end BeanContainer
