/-
# Outcomes that stay

The outcome of a condition rests on which of the other beans take part. Whichever beans that are not
decided yet are decided, and however, an outcome that is not pending is the same afterwards, and so is a
fault. A pending outcome names beans that are not decided, never the bean whose condition it is.

Key definition: `Registry.Upholds`.
Key theorem: `Registry.evaluate_stable`.
-/
import BeanContainer.Proofs.Registry.Resolution

namespace BeanContainer
namespace Registry

open Condition (Undecided)

variable {store : Store} {registry later : Registry} {self : Option ℕ}

/-- `later` is `registry` with other statuses: beans that were decided still take part or still do not,
and any of the others may be decided, in any way. -/
def Upholds (registry later : Registry) : Prop :=
  ∀ i : ℕ, Option.Rel Bean.Upholds registry.beans[i]? later.beans[i]?

/-- What a lookup finds pending: the undecided beans among those it finds. -/
theorem lookup_pending (selector : Selector) : (registry.lookup self selector).pending =
    registry.ids ((registry.others self selector).filter (registry.satisfies (·.isUndecided))) := rfl

theorem others_sorted (registry : Registry) (self : Option ℕ) (selector : Selector) :
    (registry.others self selector).Pairwise (· < ·) :=
  (List.pairwise_lt_range.filter _).filter _

/-- **Decided outcomes are stable.** An outcome that is not pending, or a fault, is the same once more
beans are decided. A pending outcome carries the ids of beans that are not decided, one at least and
each once, and none of them is the bean whose condition is evaluated. -/
theorem evaluate_stable (h : registry.Upholds later) (store : Store) (self : Option ℕ)
    (condition : Condition) :
    (¬ Undecided (condition.evaluate store (registry.lookup self)) →
      condition.evaluate store (later.lookup self) =
        condition.evaluate store (registry.lookup self)) ∧
    ∀ ids, condition.evaluate store (registry.lookup self) = .ok (.pending ids) →
      ∃ positions, ids = registry.ids positions ∧ positions ≠ [] ∧ positions.Pairwise (· < ·) ∧
        ∀ i ∈ positions, i ∈ registry.satisfying (·.isUndecided) ∧ self ≠ some i := by
  constructor
  · intro hd
    refine Condition.evaluate_settled (fun selector => ?_) condition hd
    have hsettles := lookup_settles (σ := Equiv.refl ℕ) h (fun _ _ => id) self selector
    rwa [Equiv.coe_refl, Option.map_id_fun, id] at hsettles
  · intro ids hids
    obtain ⟨hne, selector, -, rfl⟩ := Condition.evaluate_pending condition hids
    rw [lookup_pending] at hne ⊢
    refine ⟨_, rfl, fun hnil => hne (by rw [hnil]; rfl), (others_sorted _ _ _).filter _, ?_⟩
    intro i hi
    obtain ⟨ho, hu⟩ := List.mem_filter.mp hi
    obtain ⟨bean, hb, hundecided⟩ := satisfies_iff.mp hu
    exact ⟨mem_satisfying.mpr ⟨bean, hb, hundecided⟩, (mem_others.mp ho).1⟩

/-- The beans of the chain with these statuses. -/
def chainWith (statuses : List Status) : Registry :=
  ⟨(chain.zip statuses).map fun (definition, status) => { Bean.ofDefinition definition with status }⟩

/-- With the last bean of the chain decided and the others not, a condition of the first bean that asks
for one bean waits on the second one; and what a missing bean decides stays when the others are
dropped. -/
theorem evaluate_stable_chain :
    (chainWith [.default, .default, .resolved]).Upholds
      (chainWith [.deleted, .deleted, .resolved]) ∧
    (∃ positions, ["b"] = (chainWith [.default, .default, .resolved]).ids positions ∧
      positions ≠ [] ∧ ∀ i ∈ positions, i ≠ 0) ∧
    (Condition.not (.onMissingBean (.named "c"))).evaluate .empty
      ((chainWith [.deleted, .deleted, .resolved]).lookup (some 0)) = .ok .matched := by
  have hupholds : (chainWith [.default, .default, .resolved]).Upholds
      (chainWith [.deleted, .deleted, .resolved]) := by
    rintro (_ | _ | _ | i)
    · exact .some ⟨rfl, nofun, nofun⟩
    · exact .some ⟨rfl, nofun, nofun⟩
    · exact .some ⟨rfl, fun _ => rfl, fun _ => rfl⟩
    · exact .none
  have hpending : (Condition.onSingleBean .all).evaluate .empty
      ((chainWith [.default, .default, .resolved]).lookup (some 0)) = .ok (.pending ["b"]) := by cbv
  have hmatched : (Condition.not (.onMissingBean (.named "c"))).evaluate .empty
      ((chainWith [.default, .default, .resolved]).lookup (some 0)) = .ok .matched := by cbv
  refine ⟨hupholds, ?_, ?_⟩
  · obtain ⟨positions, hids, hne, -, hothers⟩ :=
      (evaluate_stable hupholds .empty (some 0) (.onSingleBean .all)).2 _ hpending
    exact ⟨positions, hids, hne, fun i hi h => (hothers i hi).2 (congrArg some h.symm)⟩
  · have hdecided : ¬ Undecided ((Condition.not (.onMissingBean (.named "c"))).evaluate .empty
        ((chainWith [.default, .default, .resolved]).lookup (some 0))) := by
      rw [hmatched]
      rintro ⟨ids, hids⟩
      cases hids
    exact ((evaluate_stable hupholds .empty (some 0) _).1 hdecided).trans hmatched

end Registry
end BeanContainer
