/-
# The order of texts and of their bytes

Texts are ordered by their characters. That is the order of their UTF-8 bytes too: of two different
characters, the one that comes first has bytes that come first, whatever follows.

Key definition: `Text.bytes`.
Key theorems: `Text.encodeChar_lt`, `Text.bytes_lt`.
-/
import Mathlib.Data.Nat.Notation
import Mathlib.Tactic.SplitIfs

namespace BeanContainer
namespace Text

/-- The UTF-8 bytes of a text. -/
def bytes (text : String) : List UInt8 := text.toUTF8.data.toList

theorem bytes_eq (text : String) : bytes text = text.toList.flatMap String.utf8EncodeChar := by
  have h : text.toByteArray = text.toList.utf8Encode := by
    rw [← String.toByteArray_ofList, String.ofList_toList]
  show text.toByteArray.data.toList = _
  rw [h]
  simp [List.utf8Encode]

theorem ofNat_lt {n m : ℕ} (hn : n < 256) (hm : m < 256) :
    UInt8.ofNat n < UInt8.ofNat m ↔ n < m := by
  rw [UInt8.lt_iff_toNat_lt, UInt8.toNat_ofNat', UInt8.toNat_ofNat', Nat.mod_eq_of_lt hn,
    Nat.mod_eq_of_lt hm]

theorem ofNat_eq {n m : ℕ} (hn : n < 256) (hm : m < 256) :
    UInt8.ofNat n = UInt8.ofNat m ↔ n = m := by
  rw [← UInt8.toNat_inj, UInt8.toNat_ofNat', UInt8.toNat_ofNat', Nat.mod_eq_of_lt hn,
    Nat.mod_eq_of_lt hm]

/-- Of two numbers, the smaller one has the smaller digits in base 64, the highest ones first. -/
theorem div_mod_lt {n m : ℕ} (h : n < m) :
    n / 64 < m / 64 ∨ n / 64 = m / 64 ∧ n % 64 < m % 64 := by
  omega

theorem val_lt (c : Char) : c.val.toNat < 1114112 := by
  rcases c.valid with hv | hv
  · have hlow : c.val.toNat < 55296 := hv
    omega
  · exact hv.2

/-- The bytes of a smaller character come before those of a greater one. -/
theorem encodeChar_lt {c d : Char} (h : c < d) (x y : List UInt8) :
    String.utf8EncodeChar c ++ x < String.utf8EncodeChar d ++ y := by
  have hlt : c.val.toNat < d.val.toNat := h
  have hd := val_lt d
  unfold String.utf8EncodeChar
  generalize c.val.toNat = n at hlt ⊢
  generalize d.val.toNat = m at hlt hd ⊢
  -- a byte other than the first one holds a digit in base 64
  have h1 := div_mod_lt hlt
  have h2 := fun h => div_mod_lt (n := n / 64) (m := m / 64) h
  have h3 := fun h => div_mod_lt (n := n / 64 / 64) (m := m / 64 / 64) h
  simp only [Nat.div_div_eq_div_mul, Nat.reduceMul] at h1 h2 h3
  have hn4 : n / 262144 % 8 = n / 262144 := by omega
  have hm4 : m / 262144 % 8 = m / 262144 := by omega
  dsimp only
  split_ifs <;> simp (disch := omega) only [List.cons_append, List.nil_append,
    List.cons_lt_cons_iff, ofNat_lt, ofNat_eq] <;> omega

theorem flatMap_encodeChar_lt {cs ds : List Char} (h : cs < ds) :
    cs.flatMap String.utf8EncodeChar < ds.flatMap String.utf8EncodeChar := by
  induction h with
  | @nil d ds =>
    rw [List.flatMap_nil, List.flatMap_cons]
    have hne : String.utf8EncodeChar d ++ ds.flatMap String.utf8EncodeChar ≠ [] := by simp
    obtain ⟨byte, rest, he⟩ := List.exists_cons_of_ne_nil hne
    rw [he]
    exact List.nil_lt_cons byte rest
  | rel hlt => exact encodeChar_lt hlt _ _
  | cons _ ih => exact List.append_left_lt ih

/-- Texts are in the order of their bytes. -/
theorem bytes_lt {a b : String} (h : a < b) : bytes a < bytes b := by
  rw [bytes_eq, bytes_eq]
  exact flatMap_encodeChar_lt h

end Text
end BeanContainer
