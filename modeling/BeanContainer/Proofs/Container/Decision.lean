/-
# Conditions while beans are being made

Once the beans are decided, a condition is decided in one way, whatever beans are made meanwhile:
what its lookups see of a bean is the same from the resolution on. To say so of every moment of a
run, a look at the container is taken before each of its steps (`Probe.look`); a look that does
nothing as long as conditions are decided as they were at the start changes nothing.

Key definitions: `Condition.verify`.
Key theorems: `Registry.Decided.holds_ne`, `Container.refresh_decides`.
-/
import BeanContainer.Proofs.Container.Lockstep

namespace BeanContainer

variable {last : Registry} {store : Store} {c d : Container}

/-- No condition waits on decided beans. -/
theorem Registry.Decided.holds_ne (h : last.Decided) (store : Store) (condition : Condition)
    (ids : List String) : last.holds store condition ≠ .error (.lookup (.undecided ids)) := by
  have hdecided : ¬ Condition.Undecided (condition.evaluate store (last.lookup none)) :=
    Condition.evaluate_decided (h.pending none) condition
  have hplain := condition.plain_evaluate store (last.lookup none)
  unfold Registry.holds Condition.holds
  generalize condition.evaluate store (last.lookup none) = result at hdecided hplain ⊢
  rcases result with fault | outcome
  · -- the faults of conditions are those of properties and of the user's functions
    rintro ⟨⟩
    cases hplain
  · cases outcome with
    | matched | unmatched => exact nofun
    | pending ids => exact absurd ⟨ids, rfl⟩ hdecided

/-- Raises the alarm where the condition is decided in another way. -/
def Condition.verify (condition : Condition) (decision : Bool) (alarm : Run Unit) : Run Unit := do
  match ← liftM (Run.outcome condition.decideNow) with
  | .ok b => if b = decision then return else alarm
  | .error _ => alarm

theorem Condition.exec_verify {condition : Condition} {decision : Bool} (alarm : Run Unit)
    (h : condition.decideNow.exec c = (.ok decision, c)) :
    (condition.verify decision alarm).exec c = (.ok (), c) := by
  unfold verify
  rw [Run.exec_bind, Run.exec_outcome, h]
  dsimp only
  rw [if_pos rfl]
  rfl

namespace Container

/-- In a container that makes decided beans, conditions are decided as they were. -/
theorem Kept.exec_decideNow (h : c.Kept last store) (condition : Condition) :
    condition.decideNow.exec c = (last.holds store condition, c) := by
  rw [condition.exec_decideNow, h.holds]
  rfl

/-- A failure leaves nothing behind. -/
def still : Wake := ⟨Eq, fun _ => rfl, fun h => h ▸ rfl⟩

/-- A look that does nothing in such a container may be taken anywhere. -/
theorem admits_look {look : Run Unit} (h : ∀ c : Container, c.Kept last store →
    look.exec c = (.ok (), c)) : still.Admits last store (.look look) := by
  intro α c run other hc hr
  unfold Wake.InStep Probe.look
  rw [Run.exec_bind_ok (h c hc)]
  exact hr

/-- **Conditions are decided once for all.** From the resolution on, no condition waits on a bean,
and each is decided in the same way, be the decision a fault: before each step in the making of the
beans, and of every argument of a constructor in particular, as a look that does nothing if it is so
changes nothing; and in the running container. -/
theorem refresh_decides (hr : c.registry.resolve c.store = .ok last) :
    (∀ condition ids, last.holds c.store condition ≠ .error (.lookup (.undecided ids))) ∧
    (∀ look : Run Unit, (∀ m : Container,
        (∀ condition : Condition, condition.decideNow.exec m = (last.holds c.store condition, m)) →
          look.exec m = (.ok (), m)) →
      (probedRefresh (.look look)).exec c = refresh.exec c) ∧
    ∀ d e, refresh.exec c = (.ok (), d) → d.Aside e → ∀ condition : Condition,
      condition.decideNow.exec e = (last.holds c.store condition, e) := by
  obtain ⟨-, -, hdecided, -⟩ := Registry.resolve_ok hr
  refine ⟨Registry.Decided.holds_ne hdecided c.store, fun look hlook => ?_, ?_⟩
  · have hadmits : still.Admits last c.store (.look look) :=
      admits_look fun m hm => hlook m hm.exec_decideNow
    obtain ⟨hok, herror⟩ := refresh_inStep hadmits hr
    rcases hx : refresh.exec c with ⟨fault | ⟨⟩, d⟩
    · obtain ⟨_, rfl, hprobed⟩ := herror fault d hx
      exact hprobed
    · exact (hok d hx).1
  · intro d e hx ha condition
    have hadmits : still.Admits last c.store .none := fun _ h => h
    obtain ⟨-, hstore, halike⟩ := (refresh_inStep hadmits hr).1 d hx
    rw [condition.exec_decideNow, ha.store, ha.registry, hstore, halike.holds]

/-- There is stock, and none is missing. -/
def stocked : Condition :=
  .all [.onBean (.named "Stock"), .not (.onMissingBean (.named "Stock"))]

/-- A bean that gets an offer if there is stock, which stands behind it and is not made by then. -/
def shop : List Definition :=
  [.ofSource ⟨"Shop"⟩ "Shop" (.constructor
      ⟨"Shop", [⟨.bound ⟨"Offer"⟩ (.record []), true⟩], ⟨"Shop"⟩, fun values => .ok (.list values)⟩
      ⟨[], [.option ⟨"offer", [], ⟨"Offer"⟩, fun _ => .ok .unit⟩ [] (some stocked)]⟩ []),
    .ofSource ⟨"Stock"⟩ "Stock" (.object .unit)]

theorem refresh_decides_shop : ∃ d, d.order = [0, 1] ∧
    (∀ alarm, (probedRefresh (.look (stocked.verify true alarm))).exec
      (shop.foldl register (ofStore .empty)) = (.ok (), d)) ∧
    stocked.decideNow.exec d = (.ok true, d) := by
  have hok : (refresh.exec (shop.foldl register (ofStore .empty))).1 = .ok () := by cbv
  have horder : (refresh.exec (shop.foldl register (ofStore .empty))).2.order = [0, 1] := by cbv
  have hresolve : ((shop.foldl register (ofStore .empty)).registry.resolve .empty).map
      (·.holds .empty stocked) = .ok (.ok true) := by cbv
  rcases hr : (shop.foldl register (ofStore .empty)).registry.resolve .empty with fault | last
  · rw [hr] at hresolve
    cases hresolve
  · rw [hr] at hresolve
    have hholds : last.holds .empty stocked = .ok true := Except.ok.inj hresolve
    obtain ⟨-, hlook, hrunning⟩ := refresh_decides (c := shop.foldl register (ofStore .empty)) hr
    have hverify : ∀ alarm, (probedRefresh (.look (stocked.verify true alarm))).exec
        (shop.foldl register (ofStore .empty)) =
          refresh.exec (shop.foldl register (ofStore .empty)) := fun alarm =>
      hlook _ fun m hm => Condition.exec_verify alarm (hholds ▸ hm stocked)
    refine ⟨_, horder, fun alarm => (hverify alarm).trans (Prod.ext hok rfl), ?_⟩
    rw [hrunning _ _ (Prod.ext hok rfl) (.refl _)]
    exact congrArg (·, _) hholds

/-- The alarm goes off where the decision would be another one. -/
example : ((probedRefresh (.look (stocked.verify false (throw .cancelled)))).exec
    (shop.foldl register (ofStore .empty))).1 = .error .cancelled := by cbv

end Container
end BeanContainer
