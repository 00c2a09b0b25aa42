/-
# The listing of a store

The keys of a store name each of its texts once: they are the keys that lead to a text and are
spelt without leading zeros, in the order of their bytes. Nothing is lost in the listing, since the
keys with their texts, in any order, build the store again.

Key definitions: `Segment.Canonical`, `Key.Canonical`, `Store.Spelt`, `Store.pairs`.
Key theorems: `Key.ofLabels_of_canonical`, `Store.spelt_ofCalls`, `Store.mem_keys_iff`,
`Store.keys_sorted`, `Store.keys_exact`.
-/
import BeanContainer.Proofs.Store.Replay
import BeanContainer.Proofs.Text.Encoding
import BeanContainer.Proofs.Number.Reading

namespace BeanContainer

/-! ### Digits without leading zeros -/

theorem digitChar_of_isDigit {c : Char} (h : c.isDigit = true) :
    (c.toNat - '0'.toNat).digitChar = c := by
  have hlow : 48 ≤ c.toNat ∧ c.toNat ≤ 57 := by
    simpa [Char.isDigit, UInt32.le_iff_toNat_le] using h
  have hn : (c.toNat - '0'.toNat).digitChar.toNat = c.toNat := by
    show (c.toNat - 48).digitChar.toNat = c.toNat
    rw [Nat.toNat_digitChar_of_lt_ten (by omega)]
    omega
  exact Char.toNat_inj.mp hn

/-- Digits without a leading zero are those of the number that they write. -/
theorem toDigits_ofDigitChars {cs : List Char} (hne : cs ≠ [])
    (hd : ∀ c ∈ cs, c.isDigit = true) (hz : cs.head? = some '0' → cs = ['0']) :
    Nat.toDigits 10 (Nat.ofDigitChars 10 cs 0) = cs := by
  induction cs using List.reverseRecOn with
  | nil => exact absurd rfl hne
  | append_singleton front c ih =>
    rw [List.forall_mem_append, List.forall_mem_singleton] at hd
    obtain ⟨hfront, hc⟩ := hd
    have hlt := (digitValue?_of_isDigit hc).2
    have hlast : Nat.toDigits 10 (c.toNat - '0'.toNat) = [c] := by
      rw [Nat.toDigits_of_lt_base hlt, digitChar_of_isDigit hc]
    rcases front with _ | ⟨first, rest⟩
    · simpa [Nat.ofDigitChars_cons] using hlast
    · -- the digits in front don't begin with a zero, since there is one more behind them
      have hfirst : first ≠ '0' := by
        rintro rfl
        simpa using hz rfl
      have hdigits := ih (List.cons_ne_nil _ _) hfront fun h => absurd (Option.some.inj h) hfirst
      have hpos : 0 < Nat.ofDigitChars 10 (first :: rest) 0 := by
        by_contra hn
        rw [Nat.eq_zero_of_not_pos hn] at hdigits
        exact hfirst (List.cons.inj hdigits).1.symm
      rw [Nat.ofDigitChars_append, Nat.ofDigitChars_cons, Nat.ofDigitChars_nil,
        ← Nat.toDigits_append_toDigits (by decide) hpos hlt, hdigits, hlast]

theorem head?_toDigits {n : ℕ} (h : (Nat.toDigits 10 n).head? = some '0') : n = 0 := by
  have hn : Nat.ofDigitChars 10 (Nat.toDigits 10 n) 0 = n := Nat.ofDigitChars_ten_toDigits
  induction n using Nat.strongRecOn with
  | _ n ih =>
    by_cases hlt : n < 10
    · rw [Nat.toDigits_of_lt_base hlt] at h
      exact Nat.digitChar_eq_zero.mp (Option.some.inj h)
    · rw [Nat.toDigits_of_base_le (by decide) (by omega), List.head?_append_of_ne_nil _
        Nat.toDigits_ne_nil] at h
      have := ih (n / 10) (by omega) h Nat.ofDigitChars_ten_toDigits
      omega

/-! ### Canonical keys -/

/-- A position is written without leading zeros. -/
def Segment.Canonical : Segment → Prop
  | .name _ => True
  | .position digits => digits.toList.head? = some '0' → digits = "0"

/-- All positions in the key are written without leading zeros. -/
def Key.Canonical (key : String) : Prop :=
  ∀ segments, split key = .ok segments → ∀ segment ∈ segments, segment.Canonical

namespace Label

variable {label : Label} {segment : Segment}

theorem toSegment_canonical (label : Label) : label.toSegment.Canonical := by
  obtain text | index := label
  · trivial
  · intro h
    rw [Nat.toList_repr] at h
    rw [head?_toDigits h]
    rfl

/-- A valid segment stands for a valid label. -/
theorem valid_of_segment (hs : segment.Valid) (hl : ofSegment? segment = some label) :
    label.Valid := by
  obtain text | digits := segment
  · cases hl
    exact hs
  · simp only [ofSegment?] at hl
    split at hl
    · next hlt =>
      cases hl
      exact hlt
    · cases hl

/-- A segment without leading zeros is the one that spells its label. -/
theorem toSegment_of_canonical (hs : segment.Valid) (hc : segment.Canonical)
    (hl : ofSegment? segment = some label) : label.toSegment = segment := by
  obtain text | digits := segment
  · cases hl
    rfl
  · simp only [ofSegment?] at hl
    split at hl
    · cases hl
      have hdigits := toDigits_ofDigitChars (fun he => hs.1 (String.toList_eq_nil_iff.mp he))
        (fun c hm => Key.isDigit_eq c ▸ hs.2 c hm) fun h => by rw [hc h]; rfl
      rw [Nat.ofDigitChars_eq_foldl] at hdigits
      show Segment.position (Nat.repr _) = _
      congr 1
      rw [← String.toList_inj, Nat.toList_repr, hdigits]
    · cases hl

end Label

namespace Key

variable {key : String} {path : List Label} {segments : List Segment}

theorem labels?_cons {segment : Segment} :
    labels? (segment :: segments) = some path ↔
      ∃ label rest, Label.ofSegment? segment = some label ∧ labels? segments = some rest ∧
        path = label :: rest := by
  unfold labels?
  rw [List.mapM_cons]
  simp only [Option.bind_eq_bind, Option.bind_eq_some_iff, Option.pure_def, Option.some.injEq,
    eq_comm (b := path)]
  constructor
  · rintro ⟨label, hl, rest, hr, he⟩
    exact ⟨label, rest, hl, hr, he⟩
  · rintro ⟨label, rest, hl, hr, he⟩
    exact ⟨label, hl, rest, hr, he⟩

/-- The labels of a key are valid. -/
theorem valid_of_path? (h : path? key = some path) : ∀ label ∈ path, label.Valid := by
  obtain ⟨segments, hs, hl⟩ := path?_eq_some.mp h
  have hvalid := (split_eq_ok.mp hs).1
  clear h hs
  induction segments generalizing path with
  | nil =>
    cases hl
    nofun
  | cons segment rest ih =>
    rw [List.forall_mem_cons] at hvalid
    obtain ⟨label, more, hlabel, hmore, rfl⟩ := labels?_cons.mp hl
    exact List.forall_mem_cons.mpr ⟨Label.valid_of_segment hvalid.1 hlabel, ih hmore hvalid.2⟩

/-- The canonical key of a path is spelt without leading zeros. -/
theorem canonical_ofLabels (h : ∀ label ∈ path, label.Valid) : Canonical (ofLabels path) := by
  intro segments hs
  rw [split_ofLabels h] at hs
  cases hs
  rw [List.forall_mem_map]
  exact fun label _ => label.toSegment_canonical

/-- A key without leading zeros is the canonical one of its path. -/
theorem ofLabels_of_canonical (h : path? key = some path) (hc : Canonical key) :
    ofLabels path = key := by
  obtain ⟨segments, hs, hl⟩ := path?_eq_some.mp h
  obtain ⟨hvalid, hspelt⟩ := split_eq_ok.mp hs
  have hcanonical := hc segments hs
  have hsegments : path.map Label.toSegment = segments := by
    clear hs hspelt h
    induction segments generalizing path with
    | nil =>
      cases hl
      rfl
    | cons segment rest ih =>
      rw [List.forall_mem_cons] at hvalid hcanonical
      obtain ⟨label, more, hlabel, hmore, rfl⟩ := labels?_cons.mp hl
      rw [List.map_cons, Label.toSegment_of_canonical hvalid.1 hcanonical.1 hlabel,
        ih hmore hvalid.2 hcanonical.2]
  rw [ofLabels, hsegments, hspelt]

end Key

namespace Store

variable {store next : Store} {key text : String}

/-! ### Paths that keys spell -/

/-- Keys spell the paths of all texts, and no text stands at the root. -/
def Spelt (store : Store) : Prop :=
  ∀ leaf ∈ store.leaves, leaf.1 ≠ [] ∧ ∀ label ∈ leaf.1, label.Valid

theorem Spelt.set (h : store.Spelt) (hw : store.WellFormed) (hx : store.set key text = .ok next) :
    next.Spelt := by
  obtain ⟨path, root, hp, hne, hwrite, rfl⟩ := set_ok_iff.mp hx
  by_cases hv : ∀ node ∈ store.at? path, node.kind = .value
  · rintro ⟨other, t⟩ hl
    rw [mem_leaves_iff (hw.set hx)] at hl
    have hat := (Node.at?_write hwrite hv).mp hl
    split at hat
    · next he =>
      subst he
      exact ⟨hne, Key.valid_of_path? hp⟩
    · exact h _ ((mem_leaves_iff hw).mpr hat)
  · push Not at hv
    obtain ⟨node, hn, hk⟩ := hv
    have hsame := Node.write_branch hwrite hw hn hk
    rw [← hsame]
    exact h

theorem spelt_ofCalls (calls : List (String × String)) : (ofCalls calls).Spelt := by
  induction calls using List.reverseRecOn with
  | nil => exact nofun
  | append_singleton calls last ih =>
    rw [ofCalls_concat]
    rcases hx : (ofCalls calls).set last.1 last.2 with fault | next
    · rw [call_of_error hx]
      exact ih
    · rw [call_of_ok hx]
      exact ih.set (wellFormed_ofCalls calls) hx

/-! ### The keys -/

theorem mem_keys : key ∈ store.keys ↔ ∃ leaf ∈ store.leaves, Key.ofLabels leaf.1 = key := by
  unfold keys
  rw [(List.mergeSort_perm _ _).mem_iff, List.mem_map]

/-- The keys are those that lead to a text and are spelt without leading zeros. -/
theorem mem_keys_iff (hw : store.WellFormed) (hs : store.Spelt) :
    key ∈ store.keys ↔ (∃ text, store.get? key = some text) ∧ Key.Canonical key := by
  rw [mem_keys]
  constructor
  · rintro ⟨⟨path, text⟩, hl, rfl⟩
    obtain ⟨-, hvalid⟩ := hs _ hl
    refine ⟨⟨text, ?_⟩, Key.canonical_ofLabels hvalid⟩
    exact (get?_iff hw).mpr ⟨path, Key.path?_ofLabels hvalid, hl⟩
  · rintro ⟨⟨text, hg⟩, hc⟩
    obtain ⟨path, hp, hl⟩ := (get?_iff hw).mp hg
    exact ⟨_, hl, Key.ofLabels_of_canonical hp hc⟩

theorem nodup_keys (hw : store.WellFormed) (hs : store.Spelt) : store.keys.Nodup := by
  unfold keys
  rw [(List.mergeSort_perm _ _).nodup_iff]
  refine List.pairwise_map.mpr ((prefixFree_leaves hw).imp_of_mem ?_)
  rintro ⟨path, text⟩ ⟨other, t⟩ hl hl' ⟨hfree, -⟩ he
  -- equal keys spell equal paths
  have hpath := Key.path?_ofLabels (hs _ hl).2
  rw [show Key.ofLabels path = Key.ofLabels other from he, Key.path?_ofLabels (hs _ hl').2] at hpath
  cases hpath
  exact hfree (List.prefix_refl _)

/-- The keys stand in the order of their bytes. -/
theorem keys_sorted (hw : store.WellFormed) (hs : store.Spelt) :
    store.keys.Pairwise fun a b => Text.bytes a < Text.bytes b := by
  have hle : store.keys.Pairwise fun a b => a ≤ b := by
    have htrans : ∀ a b c : String, decide (a ≤ b) = true → decide (b ≤ c) = true →
        decide (a ≤ c) = true := fun a b c hab hbc =>
      decide_eq_true (String.le_trans (of_decide_eq_true hab) (of_decide_eq_true hbc))
    have htotal : ∀ a b : String, (decide (a ≤ b) || decide (b ≤ a)) = true := fun a b => by
      simpa using String.le_total a b
    have hsorted := List.pairwise_mergeSort htrans htotal
      (store.leaves.map fun leaf => Key.ofLabels leaf.1)
    exact hsorted.imp of_decide_eq_true
  refine (hle.and (nodup_keys hw hs)).imp ?_
  rintro a b ⟨hab, hne⟩
  have hlt : a < b := by
    by_contra hn
    exact hne (String.le_antisymm hab (String.not_lt.mp hn))
  exact Text.bytes_lt hlt

/-- The keys with their texts. -/
def pairs (store : Store) : List (String × String) :=
  store.keys.filterMap fun key => (store.get? key).map (key, ·)

theorem mem_pairs {pair : String × String} :
    pair ∈ store.pairs ↔ pair.1 ∈ store.keys ∧ store.get? pair.1 = some pair.2 := by
  obtain ⟨key, text⟩ := pair
  unfold pairs
  simp only [List.mem_filterMap, Option.map_eq_some_iff, Prod.mk.injEq]
  constructor
  · rintro ⟨_, hm, _, hg, rfl, rfl⟩
    exact ⟨hm, hg⟩
  · rintro ⟨hm, hg⟩
    exact ⟨key, hm, text, hg, rfl, rfl⟩

/-- **The keys of a store are an exact and lossless listing of it**, whatever calls it went through.
They stand in the order of their bytes, so each is there once. A text is one of them if and only if
it leads to a stored text and spells its positions without leading zeros. And the keys with their
texts, put into an empty store in any order, build the store. -/
theorem keys_exact (calls : List (String × String)) :
    ((ofCalls calls).keys.Pairwise fun a b => Text.bytes a < Text.bytes b) ∧
      (∀ key, key ∈ (ofCalls calls).keys ↔
        (∃ text, (ofCalls calls).get? key = some text) ∧ Key.Canonical key) ∧
      ∀ pairs, pairs.Perm (ofCalls calls).pairs → ofPairs pairs = .ok (ofCalls calls) := by
  have hw := wellFormed_ofCalls calls
  have hs := spelt_ofCalls calls
  refine ⟨keys_sorted hw hs, fun key => mem_keys_iff hw hs, fun pairs hp => ?_⟩
  refine ofPairs_eq_ok hw (fun pair hm => ?_) fun ⟨path, text⟩ hl => ?_
  · obtain ⟨-, hg⟩ := mem_pairs.mp (hp.mem_iff.mp hm)
    obtain ⟨path, hpath, hl⟩ := (get?_iff hw).mp hg
    exact ⟨_, hl, hpath, (hs _ hl).1, rfl⟩
  · obtain ⟨hne, hvalid⟩ := hs _ hl
    have hpath := Key.path?_ofLabels hvalid
    refine ⟨(Key.ofLabels path, text), hp.mem_iff.mpr (mem_pairs.mpr ⟨?_, ?_⟩), hpath, hne, rfl⟩
    · exact mem_keys.mpr ⟨_, hl, rfl⟩
    · exact (get?_iff hw).mpr ⟨path, hpath, hl⟩

example : (ofCalls [("b[10]", "y"), ("a.b", ""), ("b[007]", "x"), ("a", "z")]).keys =
    ["a.b", "b[10]", "b[7]"] := by cbv

end Store
end BeanContainer
