/-
# Texts without placeholders

A text without `${` stands for itself, in every store. A tag around a word names the target with the
word for its key.

Key definitions: `Template.Plain`, `isWord`, `Target.tagOf`.
Key theorems: `Text.trimChars_eq_self`, `Store.resolve_eq_self`, `Target.parseTag_tagOf`.
-/
import BeanContainer.Binding.Target
import BeanContainer.Store.Expansion
import Mathlib

namespace BeanContainer

/-! ### Blanks -/

namespace Text

variable {cs : List Char}

theorem dropBlanks_eq_self (h : ∀ c ∈ cs.head?, isBlank c = false) : dropBlanks cs = cs := by
  rcases cs with _ | ⟨c, cs⟩
  · rfl
  · exact List.dropWhile_cons_of_neg (by rw [h c rfl]; decide)

/-- Characters with no blank at either end stay as they are. -/
theorem trimChars_eq_self (hf : ∀ c ∈ cs.head?, isBlank c = false)
    (hl : ∀ c ∈ cs.getLast?, isBlank c = false) : trimChars cs = cs := by
  have hr : ∀ c ∈ cs.reverse.head?, isBlank c = false := by
    rw [List.head?_reverse]
    exact hl
  unfold trimChars
  rw [dropBlanks_eq_self hf, dropBlanks_eq_self hr, List.reverse_reverse]

theorem trimChars_eq_self_of_forall (h : ∀ c ∈ cs, isBlank c = false) : trimChars cs = cs :=
  trimChars_eq_self (fun c hc => h c (List.mem_of_mem_head? hc))
    fun c hc => h c (List.mem_of_mem_getLast? hc)

theorem trimChars_infix (cs : List Char) : trimChars cs <:+: cs := by
  have hback : (dropBlanks (dropBlanks cs).reverse).reverse <+: dropBlanks cs := by
    rw [← List.reverse_suffix, List.reverse_reverse]
    exact List.dropWhile_suffix isBlank
  exact hback.isInfix.trans (List.dropWhile_suffix isBlank).isInfix

end Text

/-! ### Templates without placeholders -/

namespace Template

/-- No placeholder opens in the characters. -/
def Plain (cs : List Char) : Prop := ¬ ['$', '{'] <:+: cs

theorem splitOpening_eq {cs : List Char} (h : Plain cs) : splitOpening cs = (cs, none) := by
  fun_induction splitOpening cs with
  | case1 => rfl
  | case2 cs => exact absurd (List.prefix_append ['$', '{'] cs).isInfix h
  | case3 c cs _ before behind hs ih =>
    have ht := ih fun hi => h (List.infix_cons hi)
    rw [hs] at ht
    cases ht
    rfl

theorem ofChars_eq {cs : List Char} (h : Plain cs) : ofChars cs = prepend cs done := by
  have hs := splitOpening_eq h
  unfold ofChars
  split
  · next before hb =>
    rw [hs] at hb
    cases hb
    rfl
  · next hb =>
    rw [hs] at hb
    cases hb

theorem ofText_eq {text : String} (h : Plain text.toList) :
    text = "" ∧ ofText text = done ∨ ofText text = literal text done := by
  unfold ofText
  rw [ofChars_eq h, prepend]
  split
  · next he => exact .inl ⟨String.toList_eq_nil_iff.mp (List.isEmpty_iff.mp he), rfl⟩
  · exact .inr (by rw [String.ofList_toList])

theorem plain_of_forall {cs : List Char} (h : ∀ c ∈ cs, c ≠ '$') : Plain cs := fun hi =>
  h '$' (hi.subset List.mem_cons_self) rfl

end Template

/-- A text without placeholders stands for itself. -/
theorem Store.resolve_eq_self (store : Store) {text : String} (h : Template.Plain text.toList) :
    store.resolve text = .ok text := by
  have hexpand : ∀ template known, text = "" ∧ template = .done ∨ template = .literal text .done →
      store.expand [] text template known = .ok text := by
    rintro _ known (⟨rfl, rfl⟩ | rfl)
    · rw [expand]
    · have hdone : ∀ known, store.expand [] text .done known = .ok "" := fun known => by rw [expand]
      calc store.expand [] text (.literal text .done) known
          = (store.expand [] text .done known).map (text ++ ·) := by rw [expand]; rfl
        _ = .ok (text ++ "") := congrArg (Except.map (text ++ ·)) (hdone known)
        _ = .ok text := by rw [String.append_empty]
  exact hexpand _ _ (Template.ofText_eq h)

/-! ### Words -/

/-- A character of a word: letters, digits, `-` and `_` are. -/
def isWordChar (c : Char) : Bool :=
  Key.isNameChar c && !Text.isBlank c && c != '$' && c != ':'

/-- Whether the text is a word, a name that needs no care in keys and tags. -/
def isWord (text : String) : Bool :=
  !text.isEmpty && text.toList.all isWordChar

theorem isWord_iff {text : String} :
    isWord text = true ↔ text ≠ "" ∧ ∀ c ∈ text.toList, isWordChar c = true := by
  simp [isWord]

theorem isWordChar_of_isAlphanum {c : Char} (h : c.isAlphanum = true ∨ c = '-' ∨ c = '_') :
    isWordChar c = true := by
  have hascii : ∀ n < 128, (Char.ofNat n).isAlphanum = true ∨ Char.ofNat n = '-' ∨
      Char.ofNat n = '_' → isWordChar (Char.ofNat n) = true := by decide +kernel
  have hlt : c.toNat < 128 := by
    rcases h with h | rfl | rfl
    · simp only [Char.isAlphanum, Char.isAlpha, Char.isUpper, Char.isLower, Char.isDigit,
        Bool.or_eq_true, Bool.and_eq_true, decide_eq_true_eq, ge_iff_le, UInt32.le_iff_toNat_le] at h
      have hv : c.toNat = c.val.toNat := rfl
      simp at h
      omega
    · decide
    · decide
  have hc := hascii c.toNat hlt
  rw [Char.ofNat_toNat] at hc
  exact hc h

namespace Target

theorem splitDefault_eq {cs : List Char} (h : ∀ c ∈ cs, c ≠ '$' ∧ c ≠ ':') (depth : ℕ) :
    Template.splitDefault depth cs = (cs, none) := by
  fun_induction Template.splitDefault depth cs with
  | case1 => rfl
  | case2 => exact absurd rfl (h '$' List.mem_cons_self).1
  | case3 depth cs key default hs ih =>
    have ht := ih (List.forall_mem_cons.mp h).2
    rw [hs] at ht
    cases ht
    rfl
  | case4 => exact absurd rfl (h ':' List.mem_cons_self).2
  | case5 depth c cs _ _ _ key default hs ih =>
    have ht := ih (List.forall_mem_cons.mp h).2
    rw [hs] at ht
    cases ht
    rfl

/-- The tag of a word. -/
def tagOf (word : String) : String := "$\x7b" ++ word ++ "\x7d"

/-- The tag of a word names the word, and no default. -/
theorem parseTag_tagOf {word : String} (h : ∀ c ∈ word.toList, isWordChar c = true) :
    parseTag (tagOf word) = .ok (word, none) := by
  have hc : ∀ c ∈ word.toList, Text.isBlank c = false ∧ c ≠ '$' ∧ c ≠ ':' := fun c hm => by
    have hw := h c hm
    simp only [isWordChar, Bool.and_eq_true, Bool.not_eq_true', bne_iff_ne] at hw
    exact ⟨hw.1.1.2, hw.1.2, hw.2⟩
  have hchars : (tagOf word).toList = '$' :: '{' :: (word.toList ++ ['}']) := by
    simp [tagOf]
  have htrim : Text.trimChars (tagOf word).toList = (tagOf word).toList := by
    rw [hchars]
    refine Text.trimChars_eq_self ?_ ?_
    · rintro c ⟨⟩
      decide
    · rw [← List.cons_append, ← List.cons_append, List.getLast?_concat]
      rintro c ⟨⟩
      decide
  have hbody : tagBody? (tagOf word).toList = some word.toList := by
    unfold tagBody?
    rw [htrim, hchars]
    simp
  have hword := Text.trimChars_eq_self_of_forall fun c hm => (hc c hm).1
  unfold parseTag
  rw [hbody]
  simp only [splitDefault_eq fun c hm => (hc c hm).2, hword, String.ofList_toList, Option.map_none]

end Target
end BeanContainer
