/-
# Arguments in their places

Each argument of a call gets one place, a slot or a position in the tail, and no two get the same
one. What an argument asks for decides its place: the slot with its index, or the next slot as long
as there is one, or the tail. Slots that no argument gets take beans by type. One step of the
placement keeps what is known of the arguments that were placed so far (`Draft.Holds`), so it is known
of all of them at the end.

Key definitions: `Place`, `Callable.Sends`, `Callable.Refuses`, `Callable.Arranges`, `Draft.Holds`.
Key theorems: `Draft.Holds.placeOne`, `Callable.place_cases`, `Callable.Arranges.slots_perm`,
`Callable.bind_exact`.
-/
import BeanContainer.Callable.Argument
import Mathlib.Data.List.Nodup
import Mathlib.Data.List.Perm.Basic
import Mathlib.Data.List.Range

namespace BeanContainer

variable {α : Type}

/-- A place among the arguments of a call. -/
inductive Place where
  | slot (index : ℕ)
  | tail (index : ℕ)
  deriving DecidableEq, Repr

namespace Place

/-- The index of a slot. -/
def slot? : Place → Option ℕ
  | slot i => some i
  | tail _ => none

/-- The index of a place in the tail. -/
def tail? : Place → Option ℕ
  | slot _ => none
  | tail j => some j

theorem mem_slots {places : List Place} {i : ℕ} :
    i ∈ places.filterMap slot? ↔ slot i ∈ places := by
  rw [List.mem_filterMap]
  constructor
  · rintro ⟨_ | _, hp, ⟨⟩⟩
    exact hp
  · exact fun hp => ⟨_, hp, rfl⟩

theorem mem_tails {places : List Place} {j : ℕ} :
    j ∈ places.filterMap tail? ↔ tail j ∈ places := by
  rw [List.mem_filterMap]
  constructor
  · rintro ⟨_ | _, hp, ⟨⟩⟩
    exact hp
  · exact fun hp => ⟨_, hp, rfl⟩

end Place

namespace Placing

/-- The argument without what it asks for. -/
def argument : Placing α → α
  | positional a | placed _ a | extra a => a

/-- The index that an argument asks for. -/
def index? : Placing α → Option ℕ
  | placed i _ => some i
  | _ => none

/-- Whether an argument asks for the next parameter. -/
def isPositional : Placing α → Bool
  | positional _ => true
  | _ => false

theorem exists_of_named {arguments : List (Placing α)} (h : named arguments = true) :
    ∃ i a, placed i a ∈ arguments := by
  fun_induction named arguments with
  | case1 => cases h
  | case2 a rest ih =>
    obtain ⟨i, b, hm⟩ := ih h
    exact ⟨i, b, List.mem_cons_of_mem _ hm⟩
  | case3 => exact ⟨_, _, List.mem_cons_self⟩
  | case4 => cases h

/-- Where no argument decides for names, one that asks for an index comes behind a positional
one. -/
theorem exists_of_not_named {arguments : List (Placing α)} {i : ℕ} {a : α}
    (h : named arguments = false) (hm : placed i a ∈ arguments) :
    ∃ b, positional b ∈ arguments := by
  fun_induction named arguments with
  | case1 => cases hm
  | case2 b rest ih =>
    obtain ⟨b, hb⟩ := ih h ((List.mem_cons.mp hm).resolve_left nofun)
    exact ⟨b, List.mem_cons_of_mem _ hb⟩
  | case3 => cases h
  | case4 => exact ⟨_, List.mem_cons_self⟩

end Placing

/-- What stands at a place. -/
def Placement.at? (placement : Placement α) : Place → Option α
  | .slot i => placement.slots[i]?
  | .tail j => placement.tail[j]?

/-- What stands at a place so far. -/
def Draft.at? (draft : Draft α) : Place → Option α
  | .slot i => draft.slots[i]?.join
  | .tail j => draft.tail[j]?

namespace Callable

/-- An argument that comes behind `before` positional ones goes to this place. -/
inductive Sends (callable : Callable) (before : ℕ) : Placing α → Place → Prop
  /-- To the slot that it names. -/
  | placed (i : ℕ) (a : α) : Sends callable before (.placed i a) (.slot i)
  /-- To the tail. -/
  | extra (a : α) (j : ℕ) : Sends callable before (.extra a) (.tail j)
  /-- To the next slot. -/
  | next (a : α) : before < callable.fixed → Sends callable before (.positional a) (.slot before)
  /-- To the tail, as all slots are taken. -/
  | overflow (a : α) (j : ℕ) : callable.fixed ≤ before →
    Sends callable before (.positional a) (.tail j)

/-- Why arguments have no places. -/
inductive Refuses (callable : Callable) (arguments : List (Placing α)) : Prop
  /-- A parameter is variadic that is not the last one. -/
  | misplaced {parameter : Parameter} : parameter ∈ callable.params.dropLast →
    parameter.variadic = true → Refuses callable arguments
  /-- Some arguments ask for an index and some for the next parameter. -/
  | mixed {i : ℕ} {a b : α} : .placed i a ∈ arguments → .positional b ∈ arguments →
    Refuses callable arguments
  /-- There is no slot with an index that is asked for. -/
  | range {i : ℕ} {a : α} : .placed i a ∈ arguments → callable.fixed ≤ i →
    Refuses callable arguments
  /-- An index is asked for twice. -/
  | repeated : ¬ (arguments.filterMap Placing.index?).Nodup → Refuses callable arguments
  /-- More arguments ask for the next parameter than there are slots, and there is no tail. -/
  | overfull : callable.isVariadic = false →
    callable.fixed < arguments.countP Placing.isPositional → Refuses callable arguments
  /-- An argument asks for the tail, and there is none. -/
  | tailless {a : α} : callable.isVariadic = false → .extra a ∈ arguments →
    Refuses callable arguments

/-- Each argument stands at one of these places, and nothing else does. -/
structure Arranges (callable : Callable) (byType : α) (arguments : List (Placing α))
    (placement : Placement α) (places : List Place) : Prop where
  /-- There is one slot for each parameter that is not variadic. -/
  slots : placement.slots.length = callable.fixed
  /-- Every argument has a place. -/
  length : places.length = arguments.length
  /-- It goes there, and it stands there. -/
  stands : ∀ k argument, arguments[k]? = some argument → ∃ place, places[k]? = some place ∧
    callable.Sends ((arguments.take k).countP Placing.isPositional) argument place ∧
    placement.at? place = some argument.argument
  /-- No two arguments have the same place. -/
  nodup : places.Nodup
  /-- The tail holds arguments alone, in their order. -/
  tail : places.filterMap Place.tail? = List.range placement.tail.length
  /-- A slot without an argument takes beans by type. -/
  rest : ∀ i a, placement.slots[i]? = some a → .slot i ∉ places → a = byType

end Callable

/-- Behind `n` of the items that satisfy `p` there is one more, if there are so many. -/
theorem exists_countP_take {p : α → Bool} {n : ℕ} {items : List α} (h : n < items.countP p) :
    ∃ k a, items[k]? = some a ∧ p a = true ∧ (items.take k).countP p = n := by
  induction items generalizing n with
  | nil => cases h
  | cons a rest ih =>
    by_cases ha : p a = true
    · cases n with
      | zero => exact ⟨0, a, rfl, ha, rfl⟩
      | succ n =>
        rw [List.countP_cons_of_pos ha] at h
        obtain ⟨k, b, hk, hb, hc⟩ := ih (Nat.lt_of_succ_lt_succ h)
        exact ⟨k + 1, b, hk, hb, by rw [List.take_succ_cons, List.countP_cons_of_pos ha, hc]⟩
    · rw [List.countP_cons_of_neg ha] at h
      obtain ⟨k, b, hk, hb, hc⟩ := ih h
      exact ⟨k + 1, b, hk, hb, by rw [List.take_succ_cons, List.countP_cons_of_neg ha, hc]⟩

/-! ### One argument after the other -/

/-- The arguments `seen` are placed: they stand at `places`, and nothing else stands anywhere. -/
structure Draft.Holds (callable : Callable) (named : Bool) (seen : List (Placing α))
    (draft : Draft α) (places : List Place) : Prop where
  size : draft.slots.length = callable.fixed
  length : places.length = seen.length
  stands : ∀ k argument, seen[k]? = some argument → ∃ place, places[k]? = some place ∧
    callable.Sends ((seen.take k).countP Placing.isPositional) argument place ∧
    draft.at? place = some argument.argument
  nodup : places.Nodup
  tail : places.filterMap Place.tail? = List.range draft.tail.length
  only : ∀ i a, draft.at? (.slot i) = some a → .slot i ∈ places
  next : draft.next = min (seen.countP Placing.isPositional) callable.fixed
  slots : places.filterMap Place.slot? =
    if named then seen.filterMap Placing.index? else List.range draft.next
  mode : ∀ argument ∈ seen, (argument.isPositional = true → named = false) ∧
    (argument.index?.isSome = true → named = true)
  closed : callable.isVariadic = false → draft.tail = []

namespace Draft

variable {callable : Callable} {named : Bool} {seen arguments rest : List (Placing α)}
  {draft next : Draft α} {places : List Place} {argument : Placing α} {place : Place} {i : ℕ} {a : α}

theorem at?_slot (draft : Draft α) (i : ℕ) : draft.at? (.slot i) = draft.slots[i]?.join := rfl

theorem at?_set (hi : i < draft.slots.length) (n : ℕ) (place : Place) :
    ({ draft with slots := draft.slots.set i (some a), next := n } : Draft α).at? place =
      if place = .slot i then some a else draft.at? place := by
  cases place with
  | slot j =>
    unfold at?
    dsimp only
    rw [List.getElem?_set]
    by_cases hj : i = j
    · simp [← hj, hi]
    · simp [hj, Ne.symm hj]
  | tail j =>
    rw [if_neg nofun]
    rfl

theorem at?_append (draft : Draft α) (a : α) (place : Place) :
    ({ draft with tail := draft.tail ++ [a] } : Draft α).at? place =
      if place = .tail draft.tail.length then some a else draft.at? place := by
  cases place with
  | slot j =>
    rw [if_neg nofun]
    rfl
  | tail j =>
    unfold at?
    dsimp only
    rcases Nat.lt_trichotomy j draft.tail.length with hj | rfl | hj
    · rw [List.getElem?_append_left hj, if_neg fun h => Nat.ne_of_lt hj (Place.tail.inj h)]
    · simp
    · rw [if_neg fun h => Nat.ne_of_gt hj (Place.tail.inj h), List.getElem?_eq_none (by simp; omega),
        List.getElem?_eq_none (Nat.le_of_lt hj)]

namespace Holds

theorem start (callable : Callable) (named : Bool) : Holds callable named ([] : List (Placing α))
    ⟨List.replicate callable.fixed none, 0, []⟩ [] where
  size := List.length_replicate
  length := rfl
  stands := nofun
  nodup := List.nodup_nil
  tail := rfl
  only i a h := by
    simp only [at?, List.getElem?_replicate] at h
    split at h <;> cases h
  next := (Nat.zero_min _).symm
  slots := by cases named <;> rfl
  mode := nofun
  closed _ := rfl

variable (h : draft.Holds callable named seen places)

include h

/-- The place of an argument that was placed is not free. -/
theorem taken (hp : place ∈ places) : ∃ a, draft.at? place = some a := by
  obtain ⟨k, hk⟩ := List.getElem?_of_mem hp
  have hlt : k < seen.length := h.length ▸ (List.getElem?_eq_some_iff.mp hk).1
  obtain ⟨place', hp', -, ha⟩ := h.stands k _ (List.getElem?_eq_getElem hlt)
  rw [hk] at hp'
  cases hp'
  exact ⟨_, ha⟩

theorem fresh_tail : .tail draft.tail.length ∉ places := by
  rw [← Place.mem_tails, h.tail]
  exact List.not_mem_range_self

/-- One more argument, at a place where none stood. -/
theorem stands_concat (hf : place ∉ places) (ha : next.at? place = some argument.argument)
    (hkept : ∀ other, other ≠ place → next.at? other = draft.at? other)
    (hs : callable.Sends (seen.countP Placing.isPositional) argument place)
    (k : ℕ) (other : Placing α) (hk : (seen ++ [argument])[k]? = some other) :
    ∃ p, (places ++ [place])[k]? = some p ∧
      callable.Sends (((seen ++ [argument]).take k).countP Placing.isPositional) other p ∧
      next.at? p = some other.argument := by
  rcases Nat.lt_trichotomy k seen.length with hlt | rfl | hgt
  · rw [List.getElem?_append_left hlt] at hk
    obtain ⟨p, hp, hsends, hat⟩ := h.stands k other hk
    have hne : p ≠ place := fun he => hf (he ▸ List.mem_of_getElem? hp)
    refine ⟨p, ?_, ?_, (hkept p hne).trans hat⟩
    · rw [List.getElem?_append_left (h.length ▸ hlt)]
      exact hp
    · rw [List.take_append_of_le_length (Nat.le_of_lt hlt)]
      exact hsends
  · rw [List.getElem?_concat_length] at hk
    cases hk
    refine ⟨place, ?_, ?_, ha⟩
    · rw [← h.length, List.getElem?_concat_length]
    · rw [List.take_left]
      exact hs
  · rw [List.getElem?_eq_none (by simp; omega)] at hk
    cases hk

theorem nodup_concat (hf : place ∉ places) : (places ++ [place]).Nodup := by
  rw [← List.concat_eq_append, List.nodup_concat]
  exact ⟨hf, h.nodup⟩

theorem mode_concat (hm : (argument.isPositional = true → named = false) ∧
    (argument.index?.isSome = true → named = true)) :
    ∀ other ∈ seen ++ [argument], (other.isPositional = true → named = false) ∧
      (other.index?.isSome = true → named = true) := by
  intro other ho
  rcases List.mem_append.mp ho with ho | ho
  · exact h.mode other ho
  · rw [List.mem_singleton.mp ho]
    exact hm

/-- An argument goes to a free slot. -/
theorem toSlot (hi : i < callable.fixed) (hf : .slot i ∉ places)
    (hs : callable.Sends (seen.countP Placing.isPositional) argument (.slot i))
    (hm : (argument.isPositional = true → named = false) ∧
      (argument.index?.isSome = true → named = true)) {n : ℕ}
    (hn : n = min ((seen ++ [argument]).countP Placing.isPositional) callable.fixed)
    (hslots : places.filterMap Place.slot? ++ [i] =
      if named then (seen ++ [argument]).filterMap Placing.index? else List.range n) :
    ({ draft with slots := draft.slots.set i (some argument.argument), next := n } : Draft α).Holds
      callable named (seen ++ [argument]) (places ++ [.slot i]) := by
  have hat := fun place => at?_set (a := argument.argument) (h.size.symm ▸ hi) n place
  refine ⟨?_, ?_, h.stands_concat hf ?_ ?_ hs, h.nodup_concat hf, ?_, ?_, hn, ?_,
    h.mode_concat hm, h.closed⟩
  · rw [List.length_set, h.size]
  · simp [h.length]
  · rw [hat, if_pos rfl]
  · intro other hne
    rw [hat, if_neg hne]
  · rw [List.filterMap_append, h.tail]
    exact List.append_nil _
  · intro j b hb
    rw [hat] at hb
    split at hb
    · next he => exact he ▸ List.mem_append_right _ List.mem_cons_self
    · exact List.mem_append_left _ (h.only j b hb)
  · rw [List.filterMap_append]
    exact hslots

/-- An argument goes to the end of the tail. -/
theorem toTail (hv : callable.isVariadic = true)
    (hs : callable.Sends (seen.countP Placing.isPositional) argument (.tail draft.tail.length))
    (hm : argument.isPositional = true → named = false) (hi : argument.index? = none)
    (hn : draft.next = min ((seen ++ [argument]).countP Placing.isPositional) callable.fixed) :
    ({ draft with tail := draft.tail ++ [argument.argument] } : Draft α).Holds callable named
      (seen ++ [argument]) (places ++ [.tail draft.tail.length]) := by
  have hat := at?_append draft argument.argument
  refine ⟨h.size, ?_, h.stands_concat h.fresh_tail ?_ ?_ hs, h.nodup_concat h.fresh_tail, ?_, ?_,
    hn, ?_, h.mode_concat ⟨hm, by simp [hi]⟩, fun hn => ?_⟩
  · simp [h.length]
  · rw [hat, if_pos rfl]
  · intro other hne
    rw [hat, if_neg hne]
  · rw [List.filterMap_append, h.tail, List.length_append, List.length_singleton, List.range_succ]
    rfl
  · intro j b hb
    exact List.mem_append_left _ (h.only j b hb)
  · have hnone : [argument].filterMap Placing.index? = [] := by simp [hi]
    rw [List.filterMap_append, List.filterMap_append, hnone, List.append_nil]
    exact (List.append_nil _).trans h.slots
  · rw [hv] at hn
    cases hn

/-- **One argument more.** An argument that is not refused gets a place that was free. -/
theorem placeOne (hp : callable.placeOne named draft argument = .ok next) :
    ∃ place, next.Holds callable named (seen ++ [argument]) (places ++ [place]) := by
  cases argument with
  | extra a =>
    by_cases hv : callable.isVariadic = true
    · rw [Callable.placeOne, if_pos hv] at hp
      cases hp
      refine ⟨_, h.toTail hv (.extra a _) nofun rfl ?_⟩
      rw [h.next, List.countP_append]
      rfl
    · rw [Callable.placeOne, if_neg hv] at hp
      cases hp
  | placed i a =>
    rw [Callable.placeOne] at hp
    split at hp
    · cases hp
    · next hn =>
      have hn : named = true := by simpa using hn
      rcases hi : draft.slots[i]? with _ | _ | taken <;> rw [hi] at hp <;> cases hp
      have hlt : i < callable.fixed := h.size ▸ (List.getElem?_eq_some_iff.mp hi).1
      have hfree : .slot i ∉ places := fun hm => by
        obtain ⟨b, hb⟩ := h.taken hm
        rw [at?_slot, hi] at hb
        cases hb
      refine ⟨_, h.toSlot hlt hfree (.placed i a) ⟨nofun, fun _ => hn⟩ ?_ ?_⟩
      · rw [h.next, List.countP_append]
        rfl
      · rw [h.slots, if_pos hn, if_pos hn, List.filterMap_append]
        rfl
  | positional a =>
    rw [Callable.placeOne] at hp
    split at hp
    · cases hp
    · next hn =>
      have hn : named = false := by simpa using hn
      have hcount : (seen ++ [Placing.positional a]).countP Placing.isPositional =
          seen.countP Placing.isPositional + 1 := by
        rw [List.countP_append]
        rfl
      have hnext := h.next
      split at hp
      · next hlt =>
        cases hp
        have hseen : draft.next = seen.countP Placing.isPositional := by omega
        have hfree : .slot draft.next ∉ places := by
          rw [← Place.mem_slots, h.slots, if_neg (by simp [hn])]
          exact List.not_mem_range_self
        have hsends : callable.Sends (seen.countP Placing.isPositional) (.positional a)
            (.slot draft.next) := hseen ▸ .next a (hseen ▸ hlt)
        refine ⟨_, h.toSlot hlt hfree hsends ⟨fun _ => hn, nofun⟩ ?_ ?_⟩
        · omega
        · rw [h.slots, if_neg (by simp [hn]), if_neg (by simp [hn]), List.range_succ]
      · next hlt =>
        split at hp
        · next hv =>
          cases hp
          exact ⟨_, h.toTail hv (.overflow a _ (by omega)) (fun _ => hn) rfl (by omega)⟩
        · cases hp

/-- An argument is refused for a reason that lies in the arguments. -/
theorem refuses {reason : UsageFault} (hn : named = Placing.named arguments)
    (hs : arguments = seen ++ argument :: rest)
    (hp : callable.placeOne named draft argument = .error reason) : callable.Refuses arguments := by
  have hm : argument ∈ arguments := hs ▸ List.mem_append_right _ List.mem_cons_self
  cases argument with
  | extra a =>
    by_cases hv : callable.isVariadic = true
    · rw [Callable.placeOne, if_pos hv] at hp
      cases hp
    · exact .tailless (Bool.not_eq_true _ ▸ hv) hm
  | placed i a =>
    rw [Callable.placeOne] at hp
    split at hp
    · next hfalse =>
      obtain ⟨b, hb⟩ := Placing.exists_of_not_named (hn ▸ by simpa using hfalse) hm
      exact .mixed hm hb
    · next htrue =>
      have htrue : named = true := by simpa using htrue
      rcases hi : draft.slots[i]? with _ | _ | taken
      · exact .range hm (h.size ▸ List.getElem?_eq_none_iff.mp hi)
      · rw [hi] at hp
        cases hp
      · have hslot : .slot i ∈ places := h.only i taken (by
          rw [at?_slot, hi]
          rfl)
        rw [← Place.mem_slots, h.slots, if_pos htrue] at hslot
        refine .repeated fun hnodup => ?_
        rw [hs, List.filterMap_append, List.nodup_append'] at hnodup
        exact hnodup.2.2 hslot List.mem_cons_self
  | positional a =>
    rw [Callable.placeOne] at hp
    split at hp
    · next htrue =>
      obtain ⟨i, b, hb⟩ := Placing.exists_of_named (hn ▸ htrue)
      exact .mixed hb hm
    · next hn =>
      have hnext := h.next
      split at hp
      · cases hp
      · next hfull =>
        split at hp
        · cases hp
        · next hv =>
          refine .overfull (Bool.not_eq_true _ ▸ hv) ?_
          rw [hs, List.countP_append, List.countP_cons_of_pos rfl]
          omega

/-- Where all arguments are placed, there is no reason to refuse them. -/
theorem not_refuses (hd : callable.misplaced? = none) : ¬ callable.Refuses seen := by
  have hnil : callable.isVariadic = false → ∀ j, .tail j ∉ places := fun hv j hj => by
    rw [← Place.mem_tails, h.tail, h.closed hv] at hj
    cases hj
  rintro (⟨hparameter, hv⟩ | ⟨hi, hp⟩ | ⟨hi, hle⟩ | hrepeated | ⟨hv, hlt⟩ | ⟨hv, hm⟩)
  · exact List.find?_eq_none.mp hd _ hparameter hv
  · have hfalse := (h.mode _ hp).1 rfl
    rw [(h.mode _ hi).2 rfl] at hfalse
    cases hfalse
  · obtain ⟨k, hk⟩ := List.getElem?_of_mem hi
    obtain ⟨place, -, ⟨⟩, hat⟩ := h.stands k _ hk
    rw [at?_slot, List.getElem?_eq_none (h.size ▸ hle)] at hat
    cases hat
  · cases hn : named with
    | true =>
      refine hrepeated ?_
      have hslots := h.slots
      rw [if_pos hn] at hslots
      rw [← hslots]
      refine h.nodup.filterMap ?_
      rintro (i | j) (i' | j') b hb hb' <;> cases hb <;> cases hb'
      rfl
    | false =>
      have hnone : seen.filterMap Placing.index? = [] := by
        refine List.filterMap_eq_nil_iff.mpr fun argument hm => ?_
        cases hi : argument.index? with
        | none => rfl
        | some i =>
          have htrue := (h.mode argument hm).2 (by rw [hi]; rfl)
          rw [hn] at htrue
          cases htrue
      exact hrepeated (hnone ▸ List.nodup_nil)
  · -- the first argument behind as many positional ones as there are slots
    obtain ⟨k, argument, hk, hpos, hcount⟩ := exists_countP_take hlt
    obtain ⟨place, hplace, hsends, -⟩ := h.stands k _ hk
    rw [hcount] at hsends
    cases hsends with
    | placed => cases hpos
    | extra => cases hpos
    | next _ hlt => exact Nat.lt_irrefl _ hlt
    | overflow => exact hnil hv _ (List.mem_of_getElem? hplace)
  · obtain ⟨k, hk⟩ := List.getElem?_of_mem hm
    obtain ⟨place, hplace, ⟨⟩, -⟩ := h.stands k _ hk
    exact hnil hv _ (List.mem_of_getElem? hplace)

omit h in
/-- **A run over the arguments** places all of them, or they are refused. -/
theorem foldlM_cases {seen rest : List (Placing α)} {draft : Draft α} {places : List Place}
    (h : draft.Holds callable named seen places) (hn : named = Placing.named arguments)
    (hs : arguments = seen ++ rest) :
    (∃ last places, rest.foldlM (callable.placeOne named) draft = .ok last ∧
      last.Holds callable named arguments places) ∨
    (∃ reason, rest.foldlM (callable.placeOne named) draft = .error reason) ∧
      callable.Refuses arguments := by
  induction rest generalizing seen draft places with
  | nil =>
    rw [List.append_nil] at hs
    exact .inl ⟨draft, places, rfl, hs ▸ h⟩
  | cons argument rest ih =>
    rw [List.foldlM_cons]
    rcases hp : callable.placeOne named draft argument with reason | next
    · exact .inr ⟨⟨reason, rfl⟩, h.refuses hn hs hp⟩
    · obtain ⟨place, hnext⟩ := h.placeOne hp
      exact ih hnext (hs.trans (List.append_cons _ _ _))

/-- Where all arguments are placed, the slots that are left take beans by type. -/
theorem arranges (byType : α) :
    callable.Arranges byType seen ⟨draft.slots.map (·.getD byType), draft.tail⟩ places where
  slots := (List.length_map _).trans h.size
  length := h.length
  stands k argument hk := by
    obtain ⟨place, hplace, hsends, hat⟩ := h.stands k argument hk
    refine ⟨place, hplace, hsends, ?_⟩
    cases place with
    | slot i =>
      rw [at?_slot, Option.join_eq_some_iff] at hat
      show (draft.slots.map _)[i]? = _
      rw [List.getElem?_map, hat]
      rfl
    | tail j => exact hat
  nodup := h.nodup
  tail := h.tail
  rest i a hi hf := by
    change (draft.slots.map _)[i]? = some a at hi
    rw [List.getElem?_map, Option.map_eq_some_iff] at hi
    obtain ⟨_ | b, hb, rfl⟩ := hi
    · rfl
    · exact absurd (h.only i b (by rw [at?_slot, hb]; rfl)) hf

end Holds
end Draft

/-! ### All arguments -/

namespace Callable

variable {callable : Callable} {byType : α} {arguments others : List (Placing α)}
  {placement other : Placement α} {places places' : List Place}

/-- The arguments of a call all get their places, or there is a reason why they don't. -/
theorem place_cases (callable : Callable) (byType : α) (arguments : List (Placing α)) :
    (∃ placement places, callable.place byType arguments = .ok placement ∧
      callable.Arranges byType arguments placement places ∧ ¬ callable.Refuses arguments) ∨
    (∃ reason, callable.place byType arguments = .error reason) ∧ callable.Refuses arguments := by
  unfold place
  rcases hd : callable.misplaced? with _ | parameter
  · dsimp only
    rcases (Draft.Holds.start callable (Placing.named arguments)).foldlM_cases rfl rfl
      with ⟨last, places, hlast, h⟩ | ⟨⟨reason, hreason⟩, hr⟩
    · rw [hlast]
      exact .inl ⟨_, places, rfl, h.arranges byType, h.not_refuses hd⟩
    · rw [hreason]
      exact .inr ⟨⟨reason, rfl⟩, hr⟩
  · exact .inr ⟨⟨_, rfl⟩, .misplaced (List.mem_of_find?_eq_some hd) (List.find?_some hd)⟩

theorem place_refuses : (∃ reason, callable.place byType arguments = .error reason) ↔
    callable.Refuses arguments := by
  rcases callable.place_cases byType arguments with ⟨placement, places, hp, -, hn⟩ | ⟨he, hr⟩
  · rw [hp]
    exact ⟨nofun, fun hr => absurd hr hn⟩
  · exact ⟨fun _ => hr, fun _ => he⟩

theorem place_arranges (h : callable.place byType arguments = .ok placement) :
    ∃ places, callable.Arranges byType arguments placement places := by
  rcases callable.place_cases byType arguments with ⟨_, places, hp, ha, -⟩ | ⟨⟨reason, he⟩, -⟩
  · rw [h] at hp
    cases hp
    exact ⟨places, ha⟩
  · rw [h] at he
    cases he

theorem Refuses.perm (h : callable.Refuses arguments) (hp : arguments.Perm others) :
    callable.Refuses others := by
  cases h with
  | misplaced hm hv => exact .misplaced hm hv
  | mixed hi hb => exact .mixed (hp.mem_iff.mp hi) (hp.mem_iff.mp hb)
  | range hi hle => exact .range (hp.mem_iff.mp hi) hle
  | repeated hn => exact .repeated fun hn' => hn ((hp.filterMap _).nodup_iff.mpr hn')
  | overfull hv hlt => exact .overfull hv (hp.countP_eq _ ▸ hlt)
  | tailless hv hm => exact .tailless hv (hp.mem_iff.mp hm)

/-- At a place of an argument stands an argument that goes there. -/
theorem Arranges.occupant (h : callable.Arranges byType arguments placement places) {place : Place}
    (hp : place ∈ places) : ∃ before argument, argument ∈ arguments ∧
      callable.Sends before argument place ∧ placement.at? place = some argument.argument := by
  obtain ⟨k, hk⟩ := List.getElem?_of_mem hp
  have hlt : k < arguments.length := h.length ▸ (List.getElem?_eq_some_iff.mp hk).1
  obtain ⟨place', hplace, hsends, hat⟩ := h.stands k _ (List.getElem?_eq_getElem hlt)
  rw [hk] at hplace
  cases hplace
  exact ⟨_, _, List.getElem_mem hlt, hsends, hat⟩

/-- A slot with an argument: some argument asks for it by its index, when none is positional. -/
theorem Arranges.placed (h : callable.Arranges byType arguments placement places)
    (hn : ∀ argument ∈ arguments, argument.isPositional = false) {i : ℕ}
    (hi : .slot i ∈ places) :
    ∃ a, .placed i a ∈ arguments ∧ placement.slots[i]? = some a := by
  obtain ⟨before, argument, hm, hsends, hat⟩ := h.occupant hi
  cases hsends with
  | placed i a => exact ⟨a, hm, hat⟩
  | next a _ => cases hn _ hm

/-- A slot holds an argument or takes beans by type. -/
theorem Arranges.mem_slots (h : callable.Arranges byType arguments placement places) {a : α}
    (ha : a ∈ placement.slots) : a = byType ∨ ∃ argument ∈ arguments, argument.argument = a := by
  obtain ⟨i, hi⟩ := List.getElem?_of_mem ha
  by_cases hm : .slot i ∈ places
  · obtain ⟨-, argument, hargument, -, hat⟩ := h.occupant hm
    exact .inr ⟨argument, hargument, Option.some.inj (hat.symm.trans hi)⟩
  · exact .inl (h.rest i a hi hm)

/-- The tail holds arguments that don't name a slot. -/
theorem Arranges.mem_tail (h : callable.Arranges byType arguments placement places) {a : α}
    (ha : a ∈ placement.tail) :
    ∃ argument ∈ arguments, argument.argument = a ∧ argument.index? = none := by
  obtain ⟨j, hj⟩ := List.getElem?_of_mem ha
  have hm : .tail j ∈ places := by
    rw [← Place.mem_tails, h.tail, List.mem_range]
    exact (List.getElem?_eq_some_iff.mp hj).1
  obtain ⟨_, argument, hargument, hsends, hat⟩ := h.occupant hm
  refine ⟨argument, hargument, Option.some.inj (hat.symm.trans hj), ?_⟩
  cases hsends <;> rfl

theorem Arranges.slot_of_placed (h : callable.Arranges byType arguments placement places) {i : ℕ}
    {a : α} (hm : .placed i a ∈ arguments) :
    .slot i ∈ places ∧ placement.slots[i]? = some a := by
  obtain ⟨k, hk⟩ := List.getElem?_of_mem hm
  obtain ⟨place, hplace, ⟨⟩, hat⟩ := h.stands k _ hk
  exact ⟨List.mem_of_getElem? hplace, hat⟩

/-- **Arguments that ask for slots get them in whatever order they are given.** -/
theorem Arranges.slots_perm (h : callable.Arranges byType arguments placement places)
    (h' : callable.Arranges byType others other places') (hp : arguments.Perm others)
    (hn : ∀ argument ∈ arguments, argument.isPositional = false) :
    other.slots = placement.slots := by
  have hn' : ∀ argument ∈ others, argument.isPositional = false := fun argument hm =>
    hn argument (hp.mem_iff.mpr hm)
  refine List.ext_getElem? fun i => ?_
  by_cases hi : .slot i ∈ places
  · obtain ⟨a, hm, ha⟩ := h.placed hn hi
    rw [ha, (h'.slot_of_placed (hp.mem_iff.mp hm)).2]
  · have hi' : .slot i ∉ places' := fun hi' => by
      obtain ⟨a, hm, -⟩ := h'.placed hn' hi'
      exact hi (h.slot_of_placed (hp.mem_iff.mpr hm)).1
    by_cases hlt : i < callable.fixed
    · have hs := List.getElem?_eq_getElem (h.slots.symm ▸ hlt : i < placement.slots.length)
      have hs' := List.getElem?_eq_getElem (h'.slots.symm ▸ hlt : i < other.slots.length)
      rw [hs, hs', h.rest i _ hs hi, h'.rest i _ hs' hi']
    · have hle := Nat.le_of_not_lt hlt
      rw [List.getElem?_eq_none (h'.slots ▸ hle : other.slots.length ≤ i),
        List.getElem?_eq_none (h.slots ▸ hle : placement.slots.length ≤ i)]

/-- **Placement neither loses nor duplicates an argument.** The arguments of a call have no places,
which is a usage fault, exactly for one of the reasons that `Refuses` lists. Else every argument has
one place of its own: an index that it names, the next slot, or the tail, where arguments stay in
their order; each other slot takes beans by type. Arguments that name their slots get the same ones
in whatever order they are given. -/
theorem bind_exact (callable : Callable) (arguments : List Arg) :
    ((∃ reason, callable.bind arguments = .error reason) ↔
      callable.Refuses (arguments.map Arg.placing)) ∧
    ∀ placement, callable.bind arguments = .ok placement →
      (∃ places,
        callable.Arranges (.expression "") (arguments.map Arg.placing) placement places) ∧
      ∀ others, arguments.Perm others →
        (∀ argument ∈ arguments, argument.placing.isPositional = false) →
        ∃ other, callable.bind others = .ok other ∧ other.slots = placement.slots := by
  refine ⟨place_refuses, fun placement h => ?_⟩
  obtain ⟨places, ha⟩ := place_arranges h
  refine ⟨⟨places, ha⟩, fun others hp hn => ?_⟩
  have hmap : (arguments.map Arg.placing).Perm (others.map Arg.placing) := hp.map _
  rcases callable.place_cases Arg.byType (others.map Arg.placing)
    with ⟨other, places', hother, ha', -⟩ | ⟨-, hr⟩
  · exact ⟨other, hother, ha.slots_perm ha' hmap (List.forall_mem_map.mpr hn)⟩
  · obtain ⟨reason, he⟩ : ∃ reason, callable.bind arguments = .error reason :=
      place_refuses.mpr (hr.perm hmap.symm)
    rw [h] at he
    cases he

/-- A function of two texts and any number of further ones. -/
def joined : Callable where
  name := "joined"
  params := [⟨.bound .string (.scalar .text), false⟩, ⟨.bound .string (.scalar .text), false⟩,
    ⟨.bound .string (.scalar .text), true⟩]
  output := .string
  run _ := .ok .unit

/-- Two indexed arguments around an optional one, in both orders. -/
theorem bind_exact_joined :
    joined.bind [.index 1 .nil, .option joined [] none, .index 0 (.expression "$a")] =
      .ok ⟨[.expression "$a", .nil], [.option joined [] none]⟩ ∧
    (∃ other, joined.bind [.option joined [] none, .index 0 (.expression "$a"), .index 1 .nil] =
      .ok other ∧ other.slots = [.expression "$a", .nil]) ∧
    ∃ reason, joined.bind [.nil, .index 1 .nil] = .error reason := by
  have hok : joined.bind [.index 1 .nil, .option joined [] none, .index 0 (.expression "$a")] =
      .ok ⟨[.expression "$a", .nil], [.option joined [] none]⟩ := rfl
  have hperm : [Arg.index 1 .nil, .option joined [] none, .index 0 (.expression "$a")].Perm
      [.option joined [] none, .index 0 (.expression "$a"), .index 1 .nil] :=
    @List.perm_append_comm _ [_] [_, _]
  refine ⟨hok, (bind_exact joined _).2 _ hok |>.2 _ hperm ?_, ?_⟩
  · simp [Arg.placing, Arg.asking, Placing.isPositional]
  · exact (bind_exact joined _).1.mpr (.mixed (i := 1) (a := .nil) (b := .nil)
      (List.mem_cons_of_mem _ List.mem_cons_self) List.mem_cons_self)

end Callable
end BeanContainer
