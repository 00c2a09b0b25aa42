/-
# Which beans a tag picks, and in which order

Selectors of a tag name beans among the candidates, one each. The beans stand in the order in which
they are first named; at a star the candidates that no selector names stand in between, by their
orders. Picking goes through the selectors once and remembers at a star how many beans it has by then
(`Registry.picks_named`).

Key definitions: `Registry.named`, `Registry.mentioned`, `Registry.Unmet`, `Registry.Selection`.
Key theorems: `Registry.pick_named`, `Registry.picks_refuse`, `Registry.select_exact`.
-/
import BeanContainer.Proofs.Registry.Search
import Mathlib.Data.List.Permutation

namespace BeanContainer.Registry

/-- The candidates that a selector matches. -/
def named (registry : Registry) (type : TypeName) (selector : Selector) : List ℕ :=
  (registry.candidates type).filter
    (registry.satisfies fun bean => selector.accepts bean.toDefinition)

/-- The beans that selectors name, each where it is named first. -/
def mentioned (registry : Registry) (type : TypeName) (selectors : List Selector) : List ℕ :=
  (selectors.flatMap (registry.named type)).eraseDups

/-- The selector matches several candidates, or none where it has to match one. -/
def Unmet (registry : Registry) (type : TypeName) (optional : Bool) (selector : Selector) : Prop :=
  1 < (registry.named type selector).length ∨
    registry.named type selector = [] ∧ optional = false

/-- The beans that a list of selectors stands for, in their order. -/
inductive Selection (registry : Registry) (type : TypeName) (selectors : List Selector) :
    List ℕ → Prop
  /-- All candidates by their orders. -/
  | auto {positions : List ℕ} : selectors = [] ∨ selectors = [.all] →
    positions.Pairwise registry.Precedes →
    (∀ i, i ∈ positions ↔ i ∈ registry.candidates type) →
    Selection registry type selectors positions
  /-- The beans that are named. -/
  | listed : selectors ≠ [] → .all ∉ selectors →
    Selection registry type selectors (registry.mentioned type selectors)
  /-- The beans that are named, and at the star all others by their orders. -/
  | spliced {front back : List Selector} {others behind : List ℕ} :
    selectors = front ++ .all :: back →
    registry.mentioned type (front ++ back) = registry.mentioned type front ++ behind →
    others.Pairwise registry.Precedes →
    (∀ i, i ∈ others ↔
      i ∈ registry.candidates type ∧ ∀ selector ∈ front ++ back, i ∉ registry.named type selector) →
    Selection registry type selectors (registry.mentioned type front ++ others ++ behind)

variable {registry : Registry} {type : TypeName} {optional : Bool} {selector : Selector}
  {selectors : List Selector} {picks : Picks} {i : ℕ}

/-! ### Candidates -/

theorem mem_mentioned :
    i ∈ registry.mentioned type selectors ↔ ∃ selector ∈ selectors, i ∈ registry.named type selector := by
  unfold mentioned
  rw [List.mem_eraseDups, List.mem_flatMap]

/-- Once all beans are decided, the candidates are those that take part. -/
theorem Decided.mem_candidates (h : registry.Decided) : i ∈ registry.candidates type ↔
    ∃ bean, registry.beans[i]? = some bean ∧ bean.isAlive = true ∧ type ∈ bean.exports := by
  rw [Registry.mem_candidates]
  refine exists_congr fun bean => and_congr_right fun hb => ?_
  have hd : bean.isUndecided = false := beq_eq_false_iff_ne.mpr (h i bean hb)
  unfold Bean.isInjectable
  rw [hd, Bool.not_false, Bool.and_true, List.contains_iff_mem]

/-! ### Picks -/

theorem eraseDups_concat (front : List ℕ) (i : ℕ) :
    (front ++ [i]).eraseDups = if i ∈ front then front.eraseDups else front.eraseDups ++ [i] := by
  rw [List.eraseDups_append]
  by_cases hi : i ∈ front
  · simp [List.removeAll, hi]
  · simp [List.removeAll, hi, List.eraseDups_cons]

theorem pick_of_ne (hs : selector ≠ .all) : registry.pick type optional picks selector =
    match registry.named type selector with
    | [] => if optional then .ok picks else .error (.noMatch selector.shown type.text)
    | [one] =>
      if one ∈ picks.picked then .ok picks
      else .ok { picks with picked := picks.picked ++ [one] }
    | several => .error (.severalMatches selector.shown type.text (registry.ids several)) :=
  if_neg hs

/-- A selector is refused whatever was picked before. -/
theorem pick_refuse (picks : Picks) :
    (∃ reason, registry.pick type optional picks selector = .error reason) ↔
      selector ≠ .all ∧ registry.Unmet type optional selector := by
  unfold Unmet
  by_cases hs : selector = .all
  · simp [pick, hs]
  · rw [pick_of_ne hs]
    rcases registry.named type selector with _ | ⟨one, _ | ⟨two, rest⟩⟩
    · cases optional <;> simp [hs]
    · have hok : ∀ reason, (if one ∈ picks.picked then .ok picks
          else .ok { picks with picked := picks.picked ++ [one] } : Except LookupFault Picks) ≠
            .error reason := by
        intro reason
        split <;> nofun
      simp [hok]
    · simp [hs]

/-- A selector that is met adds the bean that it names, unless that was named before. -/
theorem pick_named {seen : List ℕ} (star : Option ℕ) (hs : selector ≠ .all)
    (hm : ¬ registry.Unmet type optional selector) :
    registry.pick type optional ⟨seen.eraseDups, star⟩ selector =
      .ok ⟨(seen ++ registry.named type selector).eraseDups, star⟩ := by
  unfold Unmet at hm
  rw [pick_of_ne hs]
  generalize registry.named type selector = found at hm ⊢
  rcases found with _ | ⟨one, _ | ⟨two, rest⟩⟩
  · cases optional with
    | false => exact absurd (.inr ⟨rfl, rfl⟩) hm
    | true => rw [List.append_nil, if_pos rfl]
  · dsimp only
    rw [eraseDups_concat]
    simp only [List.mem_eraseDups]
    split <;> rfl
  · exact absurd (.inl (by simp)) hm

theorem picks_refuse (picks : Picks) :
    (∃ reason, selectors.foldlM (registry.pick type optional) picks = .error reason) ↔
    ∃ selector ∈ selectors, selector ≠ .all ∧ registry.Unmet type optional selector := by
  induction selectors generalizing picks with
  | nil =>
    refine ⟨?_, by simp⟩
    rintro ⟨reason, ⟨⟩⟩
  | cons selector rest ih =>
    rw [List.exists_mem_cons_iff, ← pick_refuse picks, List.foldlM_cons]
    rcases hp : registry.pick type optional picks selector with reason | next
    · exact ⟨fun _ => .inl ⟨reason, rfl⟩, fun _ => ⟨reason, rfl⟩⟩
    · refine (ih next).trans ⟨.inr, ?_⟩
      rintro (⟨reason, ⟨⟩⟩ | h)
      exact h

/-- Selectors that are met add the beans that they name. -/
theorem picks_named (seen : List ℕ) (star : Option ℕ) (hs : .all ∉ selectors)
    (hm : ∀ selector ∈ selectors, ¬ registry.Unmet type optional selector) :
    selectors.foldlM (registry.pick type optional) ⟨seen.eraseDups, star⟩ =
      .ok ⟨(seen ++ selectors.flatMap (registry.named type)).eraseDups, star⟩ := by
  induction selectors generalizing seen with
  | nil =>
    rw [List.flatMap_nil, List.append_nil]
    rfl
  | cons selector rest ih =>
    obtain ⟨hfirst, hrest⟩ := List.forall_mem_cons.mp hm
    have hne : selector ≠ .all := fun he => hs (he ▸ List.mem_cons_self)
    have htail := ih (seen ++ registry.named type selector)
      (fun hr => hs (List.mem_cons_of_mem selector hr)) hrest
    rw [List.append_assoc] at htail
    rw [List.foldlM_cons, pick_named star hne hfirst, List.flatMap_cons]
    exact htail

/-- At a star it is remembered how many beans are named before it. -/
theorem picks_spliced {front back : List Selector} (hf : .all ∉ front) (hb : .all ∉ back)
    (hm : ∀ selector ∈ front ++ back, ¬ registry.Unmet type optional selector) :
    (front ++ .all :: back).foldlM (registry.pick type optional) ⟨[], none⟩ =
      .ok ⟨registry.mentioned type (front ++ back), some (registry.mentioned type front).length⟩ := by
  obtain ⟨hmf, hmb⟩ := List.forall_mem_append.mp hm
  have hfront := picks_named [] none hf hmf
  rw [List.eraseDups_nil, List.nil_append] at hfront
  have hback := picks_named (front.flatMap (registry.named type))
    (some (registry.mentioned type front).length) hb hmb
  rw [← List.flatMap_append] at hback
  have hall : registry.pick type optional ⟨registry.mentioned type front, none⟩ .all =
      .ok ⟨registry.mentioned type front, some (registry.mentioned type front).length⟩ :=
    if_pos rfl
  calc (front ++ .all :: back).foldlM (registry.pick type optional) ⟨[], none⟩
      = (do
          let picks ← front.foldlM (registry.pick type optional) ⟨[], none⟩
          let picks ← registry.pick type optional picks .all
          back.foldlM (registry.pick type optional) picks) := by
        rw [List.foldlM_append]
        simp only [List.foldlM_cons]
    _ = (do
          let picks ← registry.pick type optional ⟨registry.mentioned type front, none⟩ .all
          back.foldlM (registry.pick type optional) picks) := by
        rw [hfront]
        rfl
    _ = back.foldlM (registry.pick type optional)
          ⟨registry.mentioned type front, some (registry.mentioned type front).length⟩ := by
        rw [hall]
        rfl
    _ = .ok ⟨registry.mentioned type (front ++ back),
          some (registry.mentioned type front).length⟩ := hback

/-! ### Selections -/

theorem Precedes.ne {j : ℕ} (h : registry.Precedes i j) : i ≠ j := by
  rintro rfl
  rcases h with h | ⟨-, h⟩
  · exact Int.lt_irrefl _ h
  · exact Nat.lt_irrefl _ h

theorem nodup_eraseDups (positions : List ℕ) : positions.eraseDups.Nodup := by
  induction h : positions.length using Nat.strongRecOn generalizing positions with
  | ind n ih =>
    rcases positions with _ | ⟨i, rest⟩
    · exact List.nodup_nil
    · have hlt : (rest.filter fun j => !j == i).length < n :=
        Nat.lt_of_le_of_lt (List.length_filter_le _ _) (h ▸ Nat.lt_succ_self _)
      rw [List.eraseDups_cons, List.nodup_cons]
      exact ⟨by simp, ih _ hlt _ rfl⟩

/-- No bean appears twice in a selection. -/
theorem Selection.nodup {positions : List ℕ}
    (h : registry.Selection type selectors positions) : positions.Nodup := by
  cases h with
  | auto _ hsorted _ => exact hsorted.imp Precedes.ne
  | listed => exact nodup_eraseDups _
  | @spliced front back others behind _ hall hsorted hothers =>
    have hnamed : (registry.mentioned type front ++ behind).Nodup := hall ▸ nodup_eraseDups _
    -- the others are apart from all that is named
    have hapart : ∀ i ∈ others, i ∉ registry.mentioned type front ++ behind := by
      intro i hi hm
      rw [← hall, mem_mentioned] at hm
      obtain ⟨selector, hs, hn⟩ := hm
      exact ((hothers i).mp hi).2 selector hs hn
    rw [List.append_assoc]
    refine (List.perm_append_comm_assoc _ _ _).nodup_iff.mpr ?_
    exact List.nodup_append'.mpr ⟨hsorted.imp Precedes.ne, hnamed, fun i hi hm => hapart i hi hm⟩

/-- With a star every candidate appears. -/
theorem Selection.complete {positions : List ℕ}
    (h : registry.Selection type selectors positions) (hstar : .all ∈ selectors)
    (hi : i ∈ registry.candidates type) : i ∈ positions := by
  cases h with
  | auto _ _ hall => exact (hall i).mpr hi
  | listed _ hn => exact absurd hstar hn
  | @spliced front back others behind _ hall _ hothers =>
    by_cases hm : i ∈ registry.mentioned type (front ++ back)
    · rw [hall, List.mem_append] at hm
      rw [List.append_assoc, List.mem_append, List.mem_append]
      exact hm.imp_right .inr
    · rw [mem_mentioned, not_exists] at hm
      have ho : i ∈ others := (hothers i).mpr ⟨hi, fun selector hs hn => hm selector ⟨hs, hn⟩⟩
      exact List.mem_append_left _ (List.mem_append_right _ ho)

theorem selection_auto (h : selectors = [] ∨ selectors = [.all]) :
    registry.Selection type selectors (registry.byOrder (registry.candidates type)) :=
  .auto h (byOrder_sorted (candidates_sorted _ _)) fun _ => (byOrder_perm _ _).mem_iff

/-- Selectors around a star: the picks are cut in two where the star was met. -/
theorem selection_spliced {front back : List Selector} (hs : selectors = front ++ .all :: back)
    {behind : List ℕ}
    (hb : registry.mentioned type (front ++ back) = registry.mentioned type front ++ behind) :
    registry.Selection type selectors (registry.mentioned type front ++ registry.byOrder
      ((registry.candidates type).filter (· ∉ registry.mentioned type (front ++ back))) ++ behind) := by
  refine .spliced hs hb (byOrder_sorted ((candidates_sorted _ _).filter _)) fun i => ?_
  rw [(byOrder_perm _ _).mem_iff, List.mem_filter, decide_eq_true_eq, mem_mentioned]
  simp only [not_exists, not_and]

theorem select_refuse {tag : AutowireTag} :
    (∃ reason, registry.select type tag = .error reason) ↔
      ∃ selector ∈ tag.selectors, selector ≠ .all ∧ registry.Unmet type tag.optional selector := by
  unfold select
  split
  · next hauto =>
    have hall : ∀ selector ∈ tag.selectors, selector = .all := by
      rcases tag with ⟨_ | ⟨selector, rest⟩, optional⟩
      · nofun
      · have he : selector :: rest = [.all] := by simpa [AutowireTag.isAuto] using hauto
        simp [he]
    refine ⟨nofun, ?_⟩
    rintro ⟨selector, hs, hne, -⟩
    exact absurd (hall selector hs) hne
  · rw [← picks_refuse ⟨[], none⟩]
    rcases tag.selectors.foldlM (registry.pick type tag.optional) ⟨[], none⟩
      with reason | ⟨picked, _ | place⟩
    · exact ⟨fun _ => ⟨reason, rfl⟩, fun _ => ⟨reason, rfl⟩⟩
    · exact ⟨nofun, nofun⟩
    · exact ⟨nofun, nofun⟩

theorem selection_of_select {tag : AutowireTag} {positions : List ℕ}
    (hstar : tag.selectors.count .all ≤ 1) (h : registry.select type tag = .ok positions) :
    registry.Selection type tag.selectors positions := by
  have hmet : ∀ selector ∈ tag.selectors, selector ≠ .all →
      ¬ registry.Unmet type tag.optional selector := fun selector hs hne hu => by
    obtain ⟨reason, hr⟩ := select_refuse.mpr ⟨selector, hs, hne, hu⟩
    rw [h] at hr
    cases hr
  unfold select at h
  split at h
  · next hauto =>
    cases h
    exact selection_auto (by simpa [AutowireTag.isAuto] using hauto)
  · next hauto =>
    by_cases hall : Selector.all ∈ tag.selectors
    · obtain ⟨front, back, hs⟩ := List.append_of_mem hall
      rw [hs] at hmet hstar h
      have hcount : front.count .all = 0 ∧ back.count .all = 0 := by
        rw [List.count_append, List.count_cons_self] at hstar
        omega
      have hfront : .all ∉ front := List.count_eq_zero.mp hcount.1
      have hback : .all ∉ back := List.count_eq_zero.mp hcount.2
      have hnamed : ∀ selector ∈ front ++ back, ¬ registry.Unmet type tag.optional selector := by
        intro selector hm
        refine hmet selector ?_ ?_
        · rcases List.mem_append.mp hm with hm | hm <;> simp [hm]
        · rintro rfl
          exact (List.mem_append.mp hm).elim hfront hback
      rw [picks_spliced hfront hback hnamed] at h
      cases h
      have hprefix : registry.mentioned type front <+: registry.mentioned type (front ++ back) := by
        unfold mentioned
        rw [List.flatMap_append, List.eraseDups_append]
        exact List.prefix_append _ _
      obtain ⟨behind, hbehind⟩ := hprefix
      rw [← hbehind, List.take_left, List.drop_left, hbehind]
      exact selection_spliced hs hbehind.symm
    · have hpicks := picks_named [] none hall fun selector hs =>
        hmet selector hs fun he => hall (he ▸ hs)
      rw [List.eraseDups_nil, List.nil_append] at hpicks
      rw [hpicks] at h
      cases h
      refine .listed (fun he => hauto ?_) hall
      simp [AutowireTag.isAuto, he]

/-- **Which beans a tag picks, and in which order.** Once all beans are decided, the candidates are
the beans that take part and are injectable as the type. The tag is refused exactly when one of its
selectors matches several candidates, or none though it is not optional. Else it picks the candidates
by their orders when it takes beans by type; the beans that its selectors name, each where it is
named first, and at the star all others by their orders. No bean appears twice, and with a star none
is missing. -/
theorem select_exact {tag : AutowireTag} (hd : registry.Decided)
    (hstar : tag.selectors.count .all ≤ 1) :
    (∀ i, i ∈ registry.candidates type ↔
      ∃ bean, registry.beans[i]? = some bean ∧ bean.isAlive = true ∧ type ∈ bean.exports) ∧
    ((∃ reason, registry.select type tag = .error reason) ↔
      ∃ selector ∈ tag.selectors, selector ≠ .all ∧ registry.Unmet type tag.optional selector) ∧
    ∀ positions, registry.select type tag = .ok positions →
      registry.Selection type tag.selectors positions ∧ positions.Nodup ∧
      (.all ∈ tag.selectors → ∀ i ∈ registry.candidates type, i ∈ positions) := by
  refine ⟨fun i => hd.mem_candidates, select_refuse, fun positions h => ?_⟩
  have hs := selection_of_select hstar h
  exact ⟨hs, hs.nodup, fun hall i hi => hs.complete hall hi⟩

/-- Five beans of one type; the condition of the last one does not hold. -/
def shelf : Registry :=
  ⟨([("A", 3), ("B", 2), ("C", 1), ("D", 1)].map fun (id, order) =>
      { Bean.ofDefinition { Definition.ofSource ⟨"Tome"⟩ id (.object .unit) with id, order } with
        status := .resolved }) ++
    [{ Bean.ofDefinition (Definition.ofSource ⟨"Tome"⟩ "E" (.object .unit)) with
        status := .deleted }]⟩

/-- The star stands behind `B`; the bean that is named again behind it stays where it was. -/
theorem select_exact_shelf :
    shelf.select ⟨"Tome"⟩ ⟨[.named "B", .all, .named "A", .named "B"], false⟩ = .ok [1, 2, 3, 0] ∧
    shelf.Selection ⟨"Tome"⟩ [.named "B", .all, .named "A", .named "B"] [1, 2, 3, 0] ∧
    ∃ reason, shelf.select ⟨"Tome"⟩ ⟨[.named "B", .typeNamed "Tome"], true⟩ = .error reason := by
  have hd : shelf.Decided := by
    intro i bean hb
    have hall : ∀ bean ∈ shelf.beans, bean.status ≠ .default := by decide
    exact hall bean (List.mem_of_getElem? hb)
  have hok : shelf.select ⟨"Tome"⟩ ⟨[.named "B", .all, .named "A", .named "B"], false⟩ =
      .ok [1, 2, 3, 0] := by cbv
  have hseveral : shelf.named ⟨"Tome"⟩ (.typeNamed "Tome") = [0, 1, 2, 3] := by cbv
  refine ⟨hok, ?_, ?_⟩
  · exact ((select_exact hd (by decide)).2.2 _ hok).1
  · refine (select_exact hd (by decide)).2.1.mpr
      ⟨.typeNamed "Tome", by simp, by simp, .inl ?_⟩
    rw [hseveral]
    decide

end BeanContainer.Registry
