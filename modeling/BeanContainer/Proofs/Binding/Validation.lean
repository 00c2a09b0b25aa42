/-
# Validated values

Whatever its type, a value comes out of a binding only when the validators of its target and of all its
fields, at any depth, are true of what they check. A binding is refused only by a validator that is
false of the part that it belongs to.

Key theorem: `Store.bindTo_validated`.
-/
import BeanContainer.Proofs.Binding.Optional

namespace BeanContainer
namespace Store

/-- **Nothing that fails its validator comes out of a binding.** A value that is bound at a target
passes the validator of the target, and its parts at any depth pass those of their fields, in every item
of a list and every entry of a map. A binding is refused only where a validator, that of the target or
one inside, is false of the value bound there, whose text the fault carries. -/
theorem bindTo_validated (store : Store) (target : Target) (schema : Schema) :
    (∀ data, store.bindTo target schema = .ok data →
      store.Passes target.validator data ∧ Validated store schema data) ∧
    ∀ fault, store.bindTo target schema = .error fault → fault.kind = .validation →
      ∃ inner part, Part store target schema inner part ∧ store.Refuses inner part fault := by
  have h := store.ends_bindTo target schema
  constructor
  · intro data hdata
    rw [hdata] at h
    exact h
  · intro fault hfault hkind
    rw [hfault] at h
    rcases h with hreading | hrefused
    · exact absurd hkind (Fault.kind_of_isReading hreading)
    · exact hrefused

/-- A record with one field, which has to be positive. -/
def pool (tag : String) : Schema :=
  .record [(⟨"size", some tag, some "$ > 0"⟩, .scalar (.int .u32))]

theorem bindTo_pool (tag size : String) (n : Int)
    (htag : Target.field ⟨"pool", none, none, ""⟩ "size" tag =
      .ok ⟨"pool.size", some size, none, "size"⟩)
    (hbind : (Schema.scalar (.int .u32)).bind empty
      ⟨"pool.size", some size, some "$ > 0", "size"⟩ = .ok (.int n))
    (hn : (Data.int n).scalar? = some (.int n)) :
    empty.bindTo ⟨"pool", none, none, ""⟩ (pool tag) =
      if 0 < n then .ok (.record [("size", .int n)])
      else .error (.rejected "$ > 0" (Scalar.int n).shown) := by
  have hsize : empty.bindTo ⟨"pool.size", some size, some "$ > 0", "size"⟩
      (.scalar (.int .u32)) =
      if 0 < n then .ok (.int n) else .error (.rejected "$ > 0" (Scalar.int n).shown) := by
    rw [bindTo, hbind]
    dsimp only [Bind.bind, Except.bind]
    rw [validate_of_scalar rfl hn, evaluateWith_positive]
    by_cases h : 0 < n
    · rw [if_pos h, decide_eq_true h]
      rfl
    · rw [if_neg h, decide_eq_false h]
      rfl
  rw [bindTo, pool, Schema.bind, Schema.bindFields_cons, htag]
  dsimp only [Bind.bind, Except.bind]
  rw [hsize]
  by_cases h : 0 < n
  · rw [if_pos h, if_pos h]
    rfl
  · rw [if_neg h, if_neg h]

theorem bindTo_validated_pool :
    (empty.bindTo ⟨"pool", none, none, ""⟩ (pool "$\x7bsize:=4\x7d") =
        .ok (.record [("size", .int 4)]) ∧
      Validated empty (pool "$\x7bsize:=4\x7d") (.record [("size", .int 4)])) ∧
    (empty.bindTo ⟨"pool", none, none, ""⟩ (pool "$\x7bsize:=0\x7d") =
        .error (.rejected "$ > 0" "0") ∧
      ∃ inner part, Part empty ⟨"pool", none, none, ""⟩ (pool "$\x7bsize:=0\x7d") inner part ∧
        empty.Refuses inner part (.rejected "$ > 0" "0")) := by
  have hgood : empty.bindTo ⟨"pool", none, none, ""⟩ (pool "$\x7bsize:=4\x7d") =
      .ok (.record [("size", .int 4)]) :=
    bindTo_pool "$\x7bsize:=4\x7d" "4" 4 (by cbv) (by cbv) rfl
  have hbad : empty.bindTo ⟨"pool", none, none, ""⟩ (pool "$\x7bsize:=0\x7d") =
      .error (.rejected "$ > 0" "0") :=
    bindTo_pool "$\x7bsize:=0\x7d" "0" 0 (by cbv) (by cbv) rfl
  exact ⟨⟨hgood, ((bindTo_validated _ _ _).1 _ hgood).2⟩, hbad,
    (bindTo_validated _ _ _).2 _ hbad rfl⟩

end Store
end BeanContainer
