/-
# What searches rest on

A search sees of a bean its definition, whether it takes part, and whether that is decided. How
far the making of beans has come is nothing to it, so searches give the same while beans are being
made. In another order of the beans a search gives the same beans, at their places in that order.

Key definitions: `Bean.standing`, `Registry.Precedes`, `Registry.Alike`, `Registry.SelectedAlike`.
Key theorems: `Registry.byOrder_sorted`, `Registry.select_sound`, `Registry.Alike.select`,
`Registry.Alike.holds`, `Registry.Reordered.select`, `Registry.Reordered.holds`.
-/
import BeanContainer.Proofs.Registry.Lookup

namespace BeanContainer

/-- What searches see of a bean. -/
def Bean.standing (bean : Bean) : Definition × Bool × Bool :=
  (bean.toDefinition, bean.isAlive, bean.isUndecided)

theorem Bean.standing_eq {bean other : Bean} (h : other.standing = bean.standing) :
    other.toDefinition = bean.toDefinition ∧ other.isAlive = bean.isAlive ∧
      other.isUndecided = bean.isUndecided := by
  unfold standing at h
  simpa only [Prod.mk.injEq] using h

namespace Registry

/-- Searches see the same beans in `other` as in `registry`. -/
def Alike (registry other : Registry) : Prop :=
  other.beans.map Bean.standing = registry.beans.map Bean.standing

variable {registry other : Registry} {σ : Equiv.Perm ℕ}

/-! ### Selected beans -/

theorem byOrder_perm (registry : Registry) (positions : List ℕ) :
    (registry.byOrder positions).Perm positions :=
  List.mergeSort_perm _ _

/-- The bean at `i` comes before the one at `j`: by their orders, and by their positions where these
are equal. -/
def Precedes (registry : Registry) (i j : ℕ) : Prop :=
  registry.orderOf i < registry.orderOf j ∨ registry.orderOf i = registry.orderOf j ∧ i < j

/-- **Positions are sorted by the orders of their beans**, and where these are equal they stay in
line. -/
theorem byOrder_sorted {positions : List ℕ} (h : positions.Pairwise (· < ·)) :
    (registry.byOrder positions).Pairwise registry.Precedes := by
  have htrans : ∀ a b c : ℕ, decide (registry.orderOf a ≤ registry.orderOf b) = true →
      decide (registry.orderOf b ≤ registry.orderOf c) = true →
      decide (registry.orderOf a ≤ registry.orderOf c) = true := by
    simp only [decide_eq_true_eq]
    exact fun a b c => Int.le_trans
  have htotal : ∀ a b : ℕ, (decide (registry.orderOf a ≤ registry.orderOf b) ||
      decide (registry.orderOf b ≤ registry.orderOf a)) = true := by
    simp only [Bool.or_eq_true, decide_eq_true_eq]
    exact fun a b => Int.le_total _ _
  unfold byOrder
  induction positions with
  | nil =>
    rw [List.mergeSort_nil]
    exact .nil
  | cons i rest ih =>
    obtain ⟨hfirst, hrest⟩ := List.pairwise_cons.mp h
    have hsorted := List.pairwise_mergeSort htrans htotal (i :: rest)
    -- the first position stands behind those of lower orders, and before all others
    obtain ⟨low, high, hi, hsort, hlow⟩ := List.mergeSort_cons htrans htotal i rest
    rw [hi] at hsorted ⊢
    have hbelow := ih hrest
    rw [hsort, List.pairwise_append] at hbelow
    obtain ⟨hl, hh, hcross⟩ := hbelow
    refine List.pairwise_append.mpr ⟨hl, List.pairwise_cons.mpr ⟨fun j hj => ?_, hh⟩, ?_⟩
    · have hij := (List.pairwise_cons.mp (List.pairwise_append.mp hsorted).2.1).1 j hj
      have hmem : j ∈ rest := List.mem_mergeSort.mp (hsort ▸ List.mem_append_right low hj)
      rw [decide_eq_true_eq] at hij
      exact (Int.lt_or_eq_of_le hij).imp_right fun he => ⟨he, hfirst j hmem⟩
    · intro a ha b hb
      rcases List.mem_cons.mp hb with rfl | hb
      · have hlt := hlow a ha
        rw [Bool.not_eq_true', decide_eq_false_iff_not, Int.not_le] at hlt
        exact .inl hlt
      · exact hcross a ha b hb

theorem candidates_sorted (registry : Registry) (type : TypeName) :
    (registry.candidates type).Pairwise (· < ·) :=
  List.pairwise_lt_range.filter _

theorem mem_candidates {type : TypeName} {i : ℕ} :
    i ∈ registry.candidates type ↔ ∃ bean, registry.beans[i]? = some bean ∧
      bean.isInjectable = true ∧ bean.exports.contains type = true := by
  unfold candidates
  rw [mem_satisfying]
  simp only [Bool.and_eq_true]

/-- What is picked are candidates, none of them twice. -/
structure Picks.Sound (registry : Registry) (type : TypeName) (picks : Picks) : Prop where
  subset : picks.picked ⊆ registry.candidates type
  nodup : picks.picked.Nodup

theorem pick_sound {type : TypeName} {optional : Bool} {picks next : Picks}
    {selector : Selector} (h : registry.pick type optional picks selector = .ok next)
    (hp : picks.Sound registry type) : next.Sound registry type := by
  unfold pick at h
  split at h
  · cases h
    exact ⟨hp.subset, hp.nodup⟩
  · have hf : (registry.candidates type).filter
        (registry.satisfies fun bean => selector.accepts bean.toDefinition) ⊆
          registry.candidates type := fun i hi => List.mem_of_mem_filter hi
    generalize (registry.candidates type).filter _ = found at h hf
    match found with
    | [] =>
      cases optional with
      | false => cases h
      | true =>
        cases h
        exact hp
    | [one] =>
      by_cases ho : one ∈ picks.picked
      · simp only [if_pos ho] at h
        cases h
        exact hp
      · simp only [if_neg ho] at h
        cases h
        refine ⟨List.append_subset.mpr ⟨hp.subset, hf⟩, ?_⟩
        rw [← List.concat_eq_append]
        exact hp.nodup.concat ho
    | _ :: _ :: _ => cases h

theorem picks_sound {type : TypeName} {optional : Bool} {selectors : List Selector}
    {picks next : Picks} (h : selectors.foldlM (registry.pick type optional) picks = .ok next)
    (hp : picks.Sound registry type) : next.Sound registry type := by
  induction selectors generalizing picks with
  | nil =>
    cases h
    exact hp
  | cons selector rest ih =>
    rw [List.foldlM_cons] at h
    rcases hk : registry.pick type optional picks selector with reason | middle
    · rw [hk] at h
      cases h
    · rw [hk] at h
      exact ih h (pick_sound hk hp)

/-- Only beans are selected that can be injected as the type, and none of them twice. -/
theorem select_sound {type : TypeName} {tag : AutowireTag} {positions : List ℕ}
    (h : registry.select type tag = .ok positions) :
    positions ⊆ registry.candidates type ∧ positions.Nodup := by
  have hcandidates : (registry.candidates type).Nodup :=
    (candidates_sorted registry type).imp Nat.ne_of_lt
  unfold select at h
  split at h
  · cases h
    exact ⟨(byOrder_perm _ _).subset, (byOrder_perm _ _).nodup_iff.mpr hcandidates⟩
  · rcases hp : tag.selectors.foldlM (registry.pick type tag.optional) ⟨[], none⟩
      with reason | ⟨picked, star⟩
    · rw [hp] at h
      cases h
    · rw [hp] at h
      obtain ⟨hs, hn⟩ : (Picks.mk picked star).Sound registry type :=
        picks_sound hp ⟨List.nil_subset _, List.nodup_nil⟩
      rcases star with _ | place
      · cases h
        exact ⟨hs, hn⟩
      · cases h
        have hrest : ∀ i ∈ registry.byOrder ((registry.candidates type).filter (· ∉ picked)),
            i ∈ registry.candidates type ∧ i ∉ picked := fun i hi => by
          simpa using (byOrder_perm _ _).subset hi
        refine ⟨List.append_subset.mpr ⟨List.append_subset.mpr ⟨?_, ?_⟩, ?_⟩, ?_⟩
        · exact fun i hi => hs (List.mem_of_mem_take hi)
        · exact fun i hi => (hrest i hi).1
        · exact fun i hi => hs (List.mem_of_mem_drop hi)
        · -- the others stand in the middle of what was picked
          rw [List.append_assoc]
          refine (List.perm_append_comm_assoc _ _ _).nodup_iff.mpr ?_
          rw [List.take_append_drop]
          exact List.nodup_append'.mpr ⟨(byOrder_perm _ _).nodup_iff.mpr (hcandidates.filter _), hn,
            fun i hi => (hrest i hi).2⟩

theorem select_subset {type : TypeName} {tag : AutowireTag} {positions : List ℕ}
    (h : registry.select type tag = .ok positions) :
    positions ⊆ registry.candidates type :=
  (select_sound h).1

/-- What is found takes part. -/
theorem alive_of_mem_find {selector : Selector} {i : ℕ} (h : i ∈ registry.find selector) :
    ∃ bean, registry.beans[i]? = some bean ∧ bean.isAlive = true := by
  obtain ⟨bean, hb, ha, -⟩ := mem_find.mp h
  exact ⟨bean, hb, ha⟩

/-- What is selected takes part. -/
theorem alive_of_select {type : TypeName} {tag : AutowireTag} {positions : List ℕ}
    (h : registry.select type tag = .ok positions) {i : ℕ} (hi : i ∈ positions) :
    ∃ bean, registry.beans[i]? = some bean ∧ bean.isAlive = true := by
  obtain ⟨bean, hb, hinject, -⟩ := mem_candidates.mp (select_subset h hi)
  exact ⟨bean, hb, (Bool.and_eq_true_iff.mp hinject).1⟩

/-- Every selected bean has a handle. -/
theorem handles_bean {type : TypeName} {positions : List ℕ}
    (h : positions ⊆ registry.candidates type) :
    (registry.handles type positions).map (·.bean) = positions := by
  unfold handles
  rw [List.map_filterMap]
  induction positions with
  | nil => rfl
  | cons i rest ih =>
    obtain ⟨hi, hr⟩ := List.cons_subset.mp h
    obtain ⟨bean, hb, -, he⟩ := mem_candidates.mp hi
    rw [List.filterMap_cons, ih hr, hb]
    simp [List.elem_iff.mp he]

theorem mem_handles {type : TypeName} {positions : List ℕ} {handle : Handle}
    (h : handle ∈ registry.handles type positions) :
    ∃ bean, registry.beans[handle.bean]? = some bean ∧ handle = ⟨handle.bean, bean.id, type⟩ := by
  obtain ⟨i, -, hi⟩ := List.mem_filterMap.mp h
  obtain ⟨bean, hb, hi⟩ := Option.bind_eq_some_iff.mp hi
  split at hi
  · cases hi
    exact ⟨bean, hb, rfl⟩
  · cases hi

/-! ### Beans under way -/

theorem Alike.refl (registry : Registry) : registry.Alike registry := rfl

theorem Alike.trans {third : Registry} (h : registry.Alike other) (h' : other.Alike third) :
    registry.Alike third :=
  Eq.trans h' h

theorem Alike.standing (h : registry.Alike other) (i : ℕ) :
    other.beans[i]?.map Bean.standing = registry.beans[i]?.map Bean.standing := by
  rw [← List.getElem?_map, ← List.getElem?_map, h]

theorem Alike.length (h : registry.Alike other) : other.beans.length = registry.beans.length := by
  rw [← List.length_map Bean.standing, h, List.length_map]

/-- What is read off the standing of a bean is the same in both registries. -/
theorem Alike.map {α : Type} (h : registry.Alike other) (i : ℕ) {f : Bean → α}
    (g : Definition × Bool × Bool → α) (hf : f = g ∘ Bean.standing) :
    other.beans[i]?.map f = registry.beans[i]?.map f := by
  rw [hf, ← Option.map_map, ← Option.map_map, h.standing]

theorem Alike.bean (h : registry.Alike other) {i : ℕ} {bean : Bean}
    (hb : other.beans[i]? = some bean) :
    ∃ first, registry.beans[i]? = some first ∧ bean.standing = first.standing := by
  have hi := h.standing i
  rw [hb, Option.map_some, eq_comm, Option.map_eq_some_iff] at hi
  obtain ⟨first, hf, he⟩ := hi
  exact ⟨first, hf, he.symm⟩

theorem Alike.satisfies (h : registry.Alike other) {p : Bean → Bool}
    (g : Definition × Bool × Bool → Bool) (hp : p = g ∘ Bean.standing) :
    other.satisfies p = registry.satisfies p := by
  funext i
  have hi := congrArg (Option.any id) (h.map i g hp)
  rw [Option.any_map, Option.any_map] at hi
  exact hi

theorem Alike.satisfying (h : registry.Alike other) {p : Bean → Bool}
    (g : Definition × Bool × Bool → Bool) (hp : p = g ∘ Bean.standing) :
    other.satisfying p = registry.satisfying p := by
  unfold Registry.satisfying indices
  rw [h.satisfies g hp, h.length]

theorem Alike.find (h : registry.Alike other) (selector : Selector) :
    other.find selector = registry.find selector :=
  h.satisfying (fun (definition, alive, _) => alive && selector.accepts definition) rfl

theorem Alike.candidates (h : registry.Alike other) (type : TypeName) :
    other.candidates type = registry.candidates type :=
  h.satisfying
    (fun (definition, alive, undecided) => alive && !undecided && definition.exports.contains type)
    rfl

theorem Alike.ids (h : registry.Alike other) (positions : List ℕ) :
    other.ids positions = registry.ids positions := by
  unfold Registry.ids
  exact List.filterMap_congr fun i _ => h.map i (·.1.id) rfl

theorem Alike.byOrder (h : registry.Alike other) (positions : List ℕ) :
    other.byOrder positions = registry.byOrder positions := by
  have ho : other.orderOf = registry.orderOf := by
    funext i
    exact congrArg (Option.getD · 0) (h.map i (·.1.order) rfl)
  unfold Registry.byOrder
  rw [ho]

/-- What an injection point gets does not depend on how far beans have come. -/
theorem Alike.select (h : registry.Alike other) (type : TypeName) (tag : AutowireTag) :
    other.select type tag = registry.select type tag := by
  have hp : other.pick type tag.optional = registry.pick type tag.optional := by
    funext picks selector
    have hs : other.satisfies (fun bean => selector.accepts bean.toDefinition) =
        registry.satisfies fun bean => selector.accepts bean.toDefinition :=
      h.satisfies (fun standing => selector.accepts standing.1) rfl
    unfold pick
    rw [h.candidates, hs]
    simp only [h.ids]
  unfold Registry.select
  rw [hp]
  simp only [h.candidates, h.byOrder]

theorem Alike.handles (h : registry.Alike other) (type : TypeName) (positions : List ℕ) :
    other.handles type positions = registry.handles type positions := by
  unfold Registry.handles
  refine List.filterMap_congr fun i _ => ?_
  have hi : other.beans[i]?.map (·.toDefinition) = registry.beans[i]?.map (·.toDefinition) :=
    h.map i (·.1) rfl
  have hb := congrArg (Option.bind · fun definition : Definition =>
    if definition.exports.contains type then some (⟨i, definition.id, type⟩ : Handle) else none) hi
  rw [Option.bind_map, Option.bind_map] at hb
  exact hb

/-- Conditions hold of beans under way as they hold of beans that are only decided. -/
theorem Alike.holds (h : registry.Alike other) (store : Store) :
    other.holds store = registry.holds store := by
  have hl : other.lookup none = registry.lookup none := by
    funext selector
    have hd : other.satisfies (!·.isUndecided) = registry.satisfies (!·.isUndecided) :=
      h.satisfies (fun standing => !standing.2.2) rfl
    have hu : other.satisfies (·.isUndecided) = registry.satisfies (·.isUndecided) :=
      h.satisfies (fun standing => standing.2.2) rfl
    unfold Registry.lookup
    rw [h.find, hd, hu]
    simp only [h.ids]
  funext condition
  unfold Registry.holds
  rw [hl]

/-! ### Beans in another order -/

theorem Reordered.satisfies (h : Reordered σ registry other) (p : Bean → Bool) (i : ℕ) :
    other.satisfies p (σ i) = registry.satisfies p i := by
  unfold Registry.satisfies
  rw [h i]

theorem Reordered.filter_satisfies (h : Reordered σ registry other) (p : Bean → Bool)
    (positions : List ℕ) : (positions.map σ).filter (other.satisfies p) =
      (positions.filter (registry.satisfies p)).map σ := by
  rw [List.filter_map]
  exact congrArg (List.map σ) (List.filter_congr fun i _ => h.satisfies p i)

theorem Reordered.find_perm (h : Reordered σ registry other) (selector : Selector) :
    ((registry.find selector).map σ).Perm (other.find selector) :=
  h.satisfying_perm _

theorem Reordered.mem_find (h : Reordered σ registry other) {selector : Selector} {i : ℕ} :
    σ i ∈ other.find selector ↔ i ∈ registry.find selector := by
  rw [← (h.find_perm selector).mem_iff, List.mem_map_of_injective σ.injective]

theorem Reordered.candidates_perm (h : Reordered σ registry other) (type : TypeName) :
    ((registry.candidates type).map σ).Perm (other.candidates type) :=
  h.satisfying_perm _

/-- The selections of two registries that hold the same beans: the same beans, or none in both. -/
inductive SelectedAlike (σ : Equiv.Perm ℕ) :
    Except LookupFault (List ℕ) → Except LookupFault (List ℕ) → Prop
  | picked {positions positions' : List ℕ} : (positions.map σ).Perm positions' →
    SelectedAlike σ (.ok positions) (.ok positions')
  | refused (reason reason' : LookupFault) : SelectedAlike σ (.error reason) (.error reason')

/-- The picks of the same beans in another order of the beans. -/
def Picks.map (σ : Equiv.Perm ℕ) (picks : Picks) : Picks :=
  { picks with picked := picks.picked.map σ }

theorem Reordered.pick (h : Reordered σ registry other) (type : TypeName) (optional : Bool)
    (picks : Picks) (selector : Selector) :
    (other.pick type optional (picks.map σ) selector).toOption =
      (registry.pick type optional picks selector).toOption.map (Picks.map σ) := by
  unfold Registry.pick
  split
  · simp [Picks.map, Except.toOption]
  · have hp := (h.candidates_perm type).filter
      (other.satisfies fun bean => selector.accepts bean.toDefinition)
    rw [h.filter_satisfies] at hp
    generalize (registry.candidates type).filter _ = found at hp ⊢
    generalize (other.candidates type).filter _ = found' at hp ⊢
    match found, found', hp with
    | [], found', hp =>
      obtain rfl := hp.nil_eq
      cases optional <;> rfl
    | [one], found', hp =>
      obtain rfl := List.singleton_perm.mp hp
      have hm : σ one ∈ picks.picked.map σ ↔ one ∈ picks.picked :=
        List.mem_map_of_injective σ.injective
      by_cases ho : one ∈ picks.picked
      · simp [Picks.map, ho, Except.toOption]
      · simp [Picks.map, ho, Except.toOption]
    | one :: two :: rest, found', hp =>
      have hl := hp.length_eq
      match found', hl with
      | _ :: _ :: _, _ => rfl

theorem Reordered.picks (h : Reordered σ registry other) (type : TypeName) (optional : Bool)
    (selectors : List Selector) (picks : Picks) :
    (selectors.foldlM (other.pick type optional) (picks.map σ)).toOption =
      (selectors.foldlM (registry.pick type optional) picks).toOption.map (Picks.map σ) := by
  induction selectors generalizing picks with
  | nil => rfl
  | cons selector rest ih =>
    rw [List.foldlM_cons, List.foldlM_cons]
    have hp := h.pick type optional picks selector
    rcases ho : other.pick type optional (picks.map σ) selector with reason' | next' <;>
      rcases hr : registry.pick type optional picks selector with reason | next <;>
      rw [ho, hr] at hp
    · rfl
    · cases hp
    · cases hp
    · cases hp
      exact ih next

/-- **An injection point gets the same beans in every order of registration**, or none in any. -/
theorem Reordered.select (h : Reordered σ registry other) (type : TypeName) (tag : AutowireTag) :
    SelectedAlike σ (registry.select type tag) (other.select type tag) := by
  unfold Registry.select
  split
  · refine .picked (((byOrder_perm _ _).map σ).trans ?_)
    exact (h.candidates_perm type).trans (byOrder_perm _ _).symm
  · have hp := h.picks type tag.optional tag.selectors ⟨[], none⟩
    have hn : Picks.map σ ⟨[], none⟩ = ⟨[], none⟩ := rfl
    rw [hn] at hp
    generalize tag.selectors.foldlM (registry.pick type tag.optional) ⟨[], none⟩ = first at hp ⊢
    generalize tag.selectors.foldlM (other.pick type tag.optional) ⟨[], none⟩ = second at hp ⊢
    rcases first with reason | ⟨picked, star⟩ <;> rcases second with reason' | second
    · exact .refused _ _
    · cases hp
    · cases hp
    · cases hp
      rcases star with _ | place
      · exact .picked (List.Perm.refl _)
      · refine .picked ?_
        have hr : ((registry.candidates type).filter (· ∉ picked)).map σ =
            ((registry.candidates type).map σ).filter (· ∉ picked.map σ) := by
          rw [List.filter_map]
          refine congrArg (List.map σ) (List.filter_congr fun i _ => ?_)
          have hm : σ i ∈ picked.map σ ↔ i ∈ picked := List.mem_map_of_injective σ.injective
          simp only [Function.comp_apply, hm]
        dsimp only [Picks.map]
        rw [List.map_append, List.map_append, List.map_take, List.map_drop]
        refine List.Perm.append (List.Perm.append_left _ ?_) (List.Perm.refl _)
        refine ((byOrder_perm _ _).map σ).trans ?_
        rw [hr]
        exact ((h.candidates_perm type).filter _).trans (byOrder_perm _ _).symm

/-- No bean is left undecided. -/
def Decided (registry : Registry) : Prop :=
  ∀ (i : ℕ) (bean : Bean), registry.beans[i]? = some bean → bean.status ≠ .default

theorem Decided.pending (h : registry.Decided) (self : Option ℕ) (selector : Selector) :
    (registry.lookup self selector).pending = [] := by
  have hn : (registry.others self selector).filter (registry.satisfies (·.isUndecided)) = [] := by
    rw [List.filter_eq_nil_iff]
    intro i hi hu
    obtain ⟨bean, hb, hd⟩ := satisfies_iff.mp hu
    exact h i bean hb (by simpa [Bean.isUndecided] using hd)
  show registry.ids ((registry.others self selector).filter _) = []
  rw [hn]
  rfl

/-- Conditions hold of decided beans in every order of registration alike. -/
theorem Reordered.holds (h : Reordered σ registry other) (hd : registry.Decided)
    (hd' : other.Decided) (store : Store) : other.holds store = registry.holds store := by
  funext condition
  unfold Registry.holds Condition.holds
  rw [Condition.evaluate_eq (fun selector => ?_) (hd.pending none) (hd'.pending none)]
  have hp : ((registry.others none selector).map σ).Perm (other.others none selector) := by
    have ht : ∀ r : Registry, r.others none selector = r.find selector := fun r => by
      unfold others
      simp
    rw [ht, ht]
    exact h.find_perm selector
  rw [length_lookup_resolved, length_lookup_resolved, ← (hp.filter _).length_eq,
    h.filter_satisfies, List.length_map]

end Registry
end BeanContainer
