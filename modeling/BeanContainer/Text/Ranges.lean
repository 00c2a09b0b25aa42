/-
# Ranges of code points

A property of characters, written as the ranges of the code points that have it.

Key definitions:
- `Ranges`, pairs of a first and a last code point.
- `Ranges.contains`, whether a character lies in one of them.
-/
namespace BeanContainer.Text

/-- Pairs of a first and a last code point, both included. -/
abbrev Ranges := List (Nat × Nat)

/-- Whether the character lies in one of the ranges. -/
def Ranges.contains (ranges : Ranges) (c : Char) : Bool :=
  ranges.any fun (first, last) => first ≤ c.toNat && c.toNat ≤ last

end BeanContainer.Text
