/-
# Written integers

The decimal text of an integer reads as the integer, in every width that holds it.

Key theorems: `readDigits_eq_ok`, `readInt_repr`.
-/
import BeanContainer.Number.Reading
import Mathlib.Data.Nat.Notation

namespace BeanContainer

/-- The digit that a decimal digit stands for. -/
theorem digitValue?_of_isDigit {c : Char} (h : c.isDigit = true) :
    digitValue? 10 c = some (c.toNat - '0'.toNat) ∧ c.toNat - '0'.toNat < 10 := by
  have hc : 48 ≤ c.toNat ∧ c.toNat ≤ 57 := by
    simpa [Char.isDigit, UInt32.le_iff_toNat_le] using h
  have hlow : ('0' ≤ c && c ≤ '9') = true := by
    simpa [Char.le_def, UInt32.le_iff_toNat_le] using hc
  have hlt : c.toNat - '0'.toNat < 10 := by
    show c.toNat - 48 < 10
    omega
  refine ⟨?_, hlt⟩
  unfold digitValue?
  simp only [hlow, if_true, if_pos hlt]

/-- The sign of a number that is read. -/
def signed (negative : Bool) (n : ℕ) : Int := if negative then -n else n

theorem signed_next (negative : Bool) (n digit : ℕ) :
    (if negative then (10 : ℕ) * signed negative n - digit else (10 : ℕ) * signed negative n + digit) =
      signed negative (10 * n + digit) := by
  cases negative with
  | false =>
    simp only [signed, Bool.false_eq_true, if_false]
    omega
  | true =>
    simp only [signed, if_true]
    omega

theorem ofDigitChars_le (cs : List Char) (n : ℕ) : n ≤ Nat.ofDigitChars 10 cs n := by
  rw [Nat.ofDigitChars_eq_ofDigitChars_zero]
  calc n ≤ 10 ^ cs.length * n := Nat.le_mul_of_pos_left n (Nat.pow_pos (by decide))
    _ ≤ 10 ^ cs.length * n + Nat.ofDigitChars 10 cs 0 := Nat.le_add_right _ _

/-- Digits whose number is in bounds are read as the number. -/
theorem readDigits_eq_ok {cs : List Char} (hd : ∀ c ∈ cs, c.isDigit = true) {negative : Bool}
    {least greatest : Int} {n : ℕ} (hl : least ≤ 0) (hg : 0 ≤ greatest)
    (hleast : least ≤ signed negative (Nat.ofDigitChars 10 cs n))
    (hgreatest : signed negative (Nat.ofDigitChars 10 cs n) ≤ greatest) :
    readDigits 10 negative least greatest (signed negative n) cs =
      .ok (signed negative (Nat.ofDigitChars 10 cs n)) := by
  induction cs generalizing n with
  | nil => rfl
  | cons c rest ih =>
    rw [List.forall_mem_cons] at hd
    obtain ⟨hv, -⟩ := digitValue?_of_isDigit hd.1
    rw [Nat.ofDigitChars_cons] at hleast hgreatest ⊢
    have hle := ofDigitChars_le rest (10 * n + (c.toNat - '0'.toNat))
    -- the part that is read so far is no farther from zero than the whole
    have hpart : least ≤ signed negative (10 * n + (c.toNat - '0'.toNat)) ∧
        signed negative (10 * n + (c.toNat - '0'.toNat)) ≤ greatest := by
      cases negative <;> simp only [signed, if_true, Bool.false_eq_true, if_false] at * <;> omega
    unfold readDigits
    rw [hv]
    simp only [signed_next negative n (c.toNat - '0'.toNat)]
    rw [if_neg (by omega), if_neg (by omega)]
    exact ih hd.2 hleast hgreatest

theorem toDigits_isDigit (n : ℕ) : ∀ c ∈ Nat.toDigits 10 n, c.isDigit = true := fun _ hc =>
  Nat.isDigit_of_mem_toDigits (by decide) (by decide) hc

theorem IntWidth.least_le (width : IntWidth) : width.least ≤ 0 := by
  cases width <;> decide

theorem IntWidth.le_greatest (width : IntWidth) : 0 ≤ width.greatest := by
  cases width <;> decide

theorem toDigits_eq_cons (n : ℕ) :
    ∃ c cs, Nat.toDigits 10 n = c :: cs ∧ c ≠ '+' ∧ c ≠ '-' := by
  rcases hn : Nat.toDigits 10 n with _ | ⟨c, cs⟩
  · exact absurd hn Nat.toDigits_ne_nil
  · have hc := toDigits_isDigit n c (hn ▸ List.mem_cons_self)
    refine ⟨c, cs, rfl, ?_, ?_⟩ <;> (rintro rfl; cases hc)

theorem IntWidth.signed_of_least (width : IntWidth) (h : width.least < 0) :
    width.signed = true := by
  rcases hs : width.signed with _ | _
  · unfold least at h
    rw [hs, if_neg Bool.false_ne_true] at h
    cases h
  · rfl

/-- The text of an integer reads as the integer. -/
theorem readInt_repr (width : IntWidth) {n : Int} (hl : width.least ≤ n) (hg : n ≤ width.greatest) :
    readInt width n.repr = .ok n := by
  have hread : ∀ negative m, width.least ≤ signed negative m → signed negative m ≤ width.greatest →
      readDigits 10 negative width.least width.greatest 0 (Nat.toDigits 10 m) =
        .ok (signed negative m) := by
    intro negative m hl hg
    have hm : Nat.ofDigitChars 10 (Nat.toDigits 10 m) 0 = m := Nat.ofDigitChars_ten_toDigits
    have h0 : signed negative 0 = 0 := by cases negative <;> rfl
    have h := readDigits_eq_ok (toDigits_isDigit m) width.least_le width.le_greatest
      (hm.symm ▸ hl) (hm.symm ▸ hg)
    rwa [hm, h0] at h
  cases n with
  | ofNat m =>
    obtain ⟨c, cs, hd, hp, hm⟩ := toDigits_eq_cons m
    have hs : (Int.repr (.ofNat m)).toList = c :: cs := Nat.toList_repr.trans hd
    have h : readDigits 10 false _ _ 0 (Nat.toDigits 10 m) = .ok (.ofNat m) := hread false m hl hg
    rw [hd] at h
    unfold readInt
    rw [hs]
    simpa [hp, hm] using h
  | negSucc m =>
    obtain ⟨c, cs, hd, -, -⟩ := toDigits_eq_cons (m + 1)
    have hs : (Int.repr (.negSucc m)).toList = '-' :: c :: cs := by
      show ("-" ++ Nat.repr (m + 1)).toList = _
      rw [String.toList_append, Nat.toList_repr, hd]
      rfl
    have h : readDigits 10 true _ _ 0 (Nat.toDigits 10 (m + 1)) = .ok (.negSucc m) :=
      hread true (m + 1) hl hg
    rw [hd] at h
    unfold readInt
    rw [hs]
    simpa [width.signed_of_least (by omega)] using h

end BeanContainer
