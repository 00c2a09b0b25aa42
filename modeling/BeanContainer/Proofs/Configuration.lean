/-
# Sources of properties

A source whose pairs a store accepts is written as a whole.

Key theorem: `PropertySource.apply_of_setAll`.
-/
import BeanContainer.Configuration
import BeanContainer.Proofs.Store.Shape

namespace BeanContainer
namespace PropertySource

variable {store final : Store} {pairs : List (String × String)}

theorem write_of_setAll {name : String} (h : store.setAll pairs = .ok final) :
    write name store pairs = (final, .ok ()) := by
  induction pairs generalizing store with
  | nil =>
    cases h
    rfl
  | cons pair rest ih =>
    rcases hs : store.set pair.1 pair.2 with fault | next
    · rw [Store.setAll_cons, hs] at h
      cases h
    · rw [Store.setAll_cons_of_ok hs] at h
      unfold write
      rw [hs]
      exact ih h

/-- A source whose pairs are all accepted is written as a whole. -/
theorem apply_of_setAll {source : PropertySource} (hl : source.load store = .ok pairs)
    (h : store.setAll pairs = .ok final) : source.apply store = (final, .ok pairs.length) := by
  unfold apply
  rw [hl]
  simp only [write_of_setAll h]
  rfl

end PropertySource
end BeanContainer
