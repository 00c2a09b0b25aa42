/-
# Variables that meet a store

An environment is applied to a store in two rounds: variables named for keys that are there override
their texts, and the other ones add what they spell, as far as a copy of the store accepts it. The
copy never sees the overrides. They change texts alone, so the store itself accepts the same.

Key definitions: `Environment.candidates`.
Key theorems: `Environment.setAll_pairsFor`, `Environment.get?_pairsFor`,
`Environment.apply_overrides`, `Environment.apply_keeps`.
-/
import BeanContainer.Proofs.Configuration
import Mathlib

namespace BeanContainer

namespace Store

/-- Keys of a store that spell one path are equal. -/
theorem Spelt.eq_of_path? {store : Store} (hw : store.WellFormed) (hs : store.Spelt)
    {key other : String} (hk : key ∈ store.keys) (ho : other ∈ store.keys) {path : List Label}
    (hp : Key.path? key = some path) (hp' : Key.path? other = some path) : key = other := by
  obtain ⟨-, hc⟩ := (mem_keys_iff hw hs).mp hk
  obtain ⟨-, hc'⟩ := (mem_keys_iff hw hs).mp ho
  rw [← Key.ofLabels_of_canonical hp hc, Key.ofLabels_of_canonical hp' hc']

/-- A key of a store leads to one of its texts, away from the root. -/
theorem Spelt.exists_leaf {store : Store} (hw : store.WellFormed) (hs : store.Spelt) {key : String}
    (hk : key ∈ store.keys) :
    ∃ leaf ∈ store.leaves, Key.path? key = some leaf.1 ∧ leaf.1 ≠ [] := by
  obtain ⟨⟨text, hg⟩, -⟩ := (mem_keys_iff hw hs).mp hk
  obtain ⟨path, hp, hl⟩ := (get?_iff hw).mp hg
  exact ⟨(path, text), hl, hp, (hs _ hl).1⟩

end Store

namespace Environment

variable {environment : Environment} {store scratch final : Store} {key other text old : String}
  {path : List Label} {pairs : List (String × String)}

/-! ### Pairs that a copy of the store accepts -/

theorem accepted_cons_of_ok {pair : String × String} {rest : List (String × String)} {next : Store}
    (hx : store.set pair.1 pair.2 = .ok next) :
    accepted store (pair :: rest) = pair :: accepted next rest := by
  rw [accepted, hx]

theorem accepted_cons_of_error {pair : String × String} {rest : List (String × String)}
    {fault : Fault} (hx : store.set pair.1 pair.2 = .error fault) :
    accepted store (pair :: rest) = accepted store rest := by
  rw [accepted, hx]

/-- What a copy of the shape of a store accepts, the store accepts. -/
theorem exists_setAll_accepted (h : scratch.SameShape store) (pairs : List (String × String)) :
    ∃ final, store.setAll (accepted scratch pairs) = .ok final := by
  induction pairs generalizing scratch store with
  | nil => exact ⟨store, rfl⟩
  | cons pair rest ih =>
    rcases hs : scratch.set pair.1 pair.2 with fault | next
    · rw [accepted_cons_of_error hs]
      exact ih h
    · obtain ⟨next', hs', hn⟩ := h.set hs
      rw [accepted_cons_of_ok hs, Store.setAll_cons_of_ok hs']
      exact ih hn

/-- Pairs that spell the path of a text are never left out. -/
theorem textsAt_accepted (h : store.WellFormed) (hl : (path, old) ∈ store.leaves) (hne : path ≠ [])
    (pairs : List (String × String)) :
    Store.textsAt path (accepted store pairs) = Store.textsAt path pairs := by
  induction pairs generalizing store old with
  | nil => rfl
  | cons pair rest ih =>
    rcases hs : store.set pair.1 pair.2 with fault | next
    · have hp : Key.path? pair.1 ≠ some path := fun hp => by
        obtain ⟨next, hs', -⟩ := Store.set_sameShape h hp hne hl pair.2
        rw [hs] at hs'
        cases hs'
      rw [accepted_cons_of_error hs, Store.textsAt_cons, if_neg hp]
      exact ih h hl
    · rw [accepted_cons_of_ok hs, Store.textsAt_cons, Store.textsAt_cons,
        ih (h.set hs) (Store.set_leaf h hl hs)]

/-! ### The pairs of an environment -/

/-- The pairs of the variables that override nothing, before a store is asked for them. -/
def candidates (environment : Environment) (store : Store) : List (String × String) :=
  if environment.scope.isEmpty then []
  else
    let others := environment.settings.filter fun (name, _) =>
      name ∉ environment.used store && name != logVariable
    others.filterMap fun (name, text) => (environment.key? name).map fun key => (key, text)

theorem imports_eq (environment : Environment) (store : Store) :
    environment.imports store = accepted store (environment.candidates store) := by
  unfold imports candidates
  split <;> rfl

/-- A candidate is spelt by a variable. -/
theorem exists_of_mem_candidates {pair : String × String}
    (h : pair ∈ environment.candidates store) :
    ∃ setting ∈ environment.settings, environment.key? setting.1 = some pair.1 := by
  unfold candidates at h
  split at h
  · cases h
  · obtain ⟨setting, hm, hp⟩ := List.mem_filterMap.mp h
    obtain ⟨key, hk, rfl⟩ := Option.map_eq_some_iff.mp hp
    exact ⟨setting, List.mem_of_mem_filter hm, hk⟩

theorem mem_overrides {pair : String × String} (h : pair ∈ environment.overrides store) :
    pair.1 ∈ store.keys := by
  obtain ⟨key, hk, hp⟩ := List.mem_filterMap.mp h
  obtain ⟨found, -, rfl⟩ := Option.map_eq_some_iff.mp hp
  exact hk

/-- The only override at the path of a key is the one of the key's own variable. -/
theorem textsAt_overrides (hw : store.WellFormed) (hs : store.Spelt) (hk : key ∈ store.keys)
    (hp : Key.path? key = some path) :
    Store.textsAt path (environment.overrides store) =
      ((environment.override? key).map Prod.snd).toList := by
  obtain ⟨front, back, hsplit⟩ := List.append_of_mem hk
  have hnodup := Store.nodup_keys hw hs
  -- no other key in the listing spells the path
  have hothers : ∀ keys : List String, key ∉ keys → keys ⊆ store.keys →
      Store.textsAt path (keys.filterMap fun key =>
        (environment.override? key).map fun found => (key, found.2)) = [] := by
    intro keys hn hsub
    refine Store.textsAt_eq_nil_iff.mpr fun pair hm hpath => ?_
    obtain ⟨other, ho, he⟩ := List.mem_filterMap.mp hm
    obtain ⟨found, -, rfl⟩ := Option.map_eq_some_iff.mp he
    exact hn (hs.eq_of_path? hw hk (hsub ho) hp hpath ▸ ho)
  unfold overrides
  rw [hsplit] at hnodup hothers ⊢
  have hfront : key ∉ front := fun hm =>
    (List.nodup_append.mp hnodup).2.2 _ hm _ List.mem_cons_self rfl
  have hback : key ∉ back := (List.nodup_cons.mp hnodup.of_append_right).1
  rw [List.filterMap_append, Store.textsAt_append, hothers front hfront (List.subset_append_left _ _),
    List.nil_append, List.filterMap_cons]
  have hrest := hothers back hback fun other ho =>
    List.mem_append_right _ (List.mem_cons_of_mem _ ho)
  rcases environment.override? key with _ | found
  · exact hrest
  · simp only [Option.map_some]
    rw [Store.textsAt_cons, if_pos hp, hrest]
    rfl

/-- **A store accepts all pairs that an environment has for it.** -/
theorem setAll_pairsFor (hw : store.WellFormed) (hs : store.Spelt) (environment : Environment) :
    ∃ final, store.setAll (environment.pairsFor store) = .ok final := by
  obtain ⟨middle, hx, hm⟩ := Store.setAll_sameShape hw
    fun pair (hm : pair ∈ environment.overrides store) => hs.exists_leaf hw (mem_overrides hm)
  obtain ⟨final, hx'⟩ := exists_setAll_accepted hm (environment.candidates store)
  refine ⟨final, ?_⟩
  rw [pairsFor, Store.setAll_append_of_ok hx, imports_eq, hx']

/-- What a key reads that led to a text before the pairs were written. -/
theorem get?_pairsFor (hw : store.WellFormed) (hs : store.Spelt)
    (hx : store.setAll (environment.pairsFor store) = .ok final)
    (hp : Key.path? key = some path) (hg : store.get? key = some old) :
    final.get? key = some ((Store.textsAt path (environment.overrides store) ++
      Store.textsAt path (environment.candidates store)).getLast?.getD old) := by
  obtain ⟨path', hp', hl⟩ := (Store.get?_iff hw).mp hg
  rw [hp] at hp'
  cases hp'
  have hlast := Store.setAll_leaf hw hl hx
  rw [pairsFor, Store.textsAt_append, imports_eq, textsAt_accepted hw hl (hs _ hl).1] at hlast
  exact (Store.get?_iff (hw.setAll hx)).mpr ⟨path, hp, hlast⟩

/-! ### Applying an environment -/

/-- **A variable that is named for a key overrides it, unless another one spells the key too.** After
an environment was applied to a store that has the key, the key reads the last text of those other
variables, and the text of its own variable if there are none. -/
theorem apply_overrides (calls : List (String × String)) (environment : Environment)
    {key name text : String} (hk : key ∈ (Store.ofCalls calls).keys)
    (ho : environment.override? key = some (name, text)) :
    ∃ path, Key.path? key = some path ∧
      ((PropertySource.environment environment).apply (Store.ofCalls calls)).1.get? key =
        some ((Store.textsAt path (environment.candidates (Store.ofCalls calls))).getLast?.getD
          text) := by
  have hw := Store.wellFormed_ofCalls calls
  have hs := Store.spelt_ofCalls calls
  obtain ⟨⟨old, hg⟩, -⟩ := (Store.mem_keys_iff hw hs).mp hk
  obtain ⟨path, hp, -⟩ := (Store.get?_iff hw).mp hg
  obtain ⟨final, hx⟩ := setAll_pairsFor hw hs environment
  refine ⟨path, hp, ?_⟩
  rw [PropertySource.apply_of_setAll rfl hx, get?_pairsFor hw hs hx hp hg, textsAt_overrides hw hs hk hp, ho]
  simp [List.getLast?_cons]

theorem apply_overrides_one :
    let calls := [("a.b", "1")]
    let environment := ofPairs defaultScope [("WIREBOX_A_B", "x"), ("WIREBOX_C", "y")]
    "a.b" ∈ (Store.ofCalls calls).keys ∧
      environment.override? "a.b" = some ("WIREBOX_A_B", "x") ∧
      ∃ path, Key.path? "a.b" = some path ∧
        ((PropertySource.environment environment).apply (Store.ofCalls calls)).1.get? "a.b" =
          some ((Store.textsAt path (environment.candidates (Store.ofCalls calls))).getLast?.getD
            "x") := by
  intro calls environment
  have hkeys : (Store.ofCalls calls).keys = ["a.b"] := by cbv
  have hk : "a.b" ∈ (Store.ofCalls calls).keys := hkeys ▸ List.mem_singleton_self _
  have ho : environment.override? "a.b" = some ("WIREBOX_A_B", "x") := by cbv
  exact ⟨hk, ho, apply_overrides calls environment hk ho⟩

/-- A name in small letters spells the key as well, and is written after the override. -/
theorem override_overwritten :
    let calls := [("a.b", "1")]
    let environment := ofPairs defaultScope [("WIREBOX_A_B", "x"), ("WIREBOX_a_b", "y")]
    "a.b" ∈ (Store.ofCalls calls).keys ∧ environment.nameFor "a.b" = "WIREBOX_A_B" ∧
      environment.override? "a.b" = some ("WIREBOX_A_B", "x") ∧
      ((PropertySource.environment environment).apply (Store.ofCalls calls)).1.get? "a.b" =
        some "y" := by
  intro calls environment
  have hkeys : (Store.ofCalls calls).keys = ["a.b"] := by cbv
  exact ⟨hkeys ▸ List.mem_singleton_self _, by cbv, by cbv, by cbv⟩

/-- **An environment neither breaks a store nor reshapes it.** Its pairs are all accepted, one after
the other. Every key that led to a text leads to one. And a key of the listing keeps its text, unless
a variable has the name that the key is overridden by, or what stands behind the scope in the name of
a variable spells the key's path. -/
theorem apply_keeps (calls : List (String × String)) (environment : Environment) :
    ∃ final, (Store.ofCalls calls).setAll (environment.pairsFor (Store.ofCalls calls)) = .ok final ∧
      (PropertySource.environment environment).apply (Store.ofCalls calls) =
        (final, .ok (environment.pairsFor (Store.ofCalls calls)).length) ∧
      (∀ key, ((Store.ofCalls calls).get? key).isSome = true → (final.get? key).isSome = true) ∧
      ∀ key ∈ (Store.ofCalls calls).keys,
        (∃ setting ∈ environment.settings, setting.1 = environment.nameFor key) ∨
        (∃ setting ∈ environment.settings, ∃ other, environment.key? setting.1 = some other ∧
          Key.path? other = Key.path? key) ∨
        final.get? key = (Store.ofCalls calls).get? key := by
  have hw := Store.wellFormed_ofCalls calls
  have hs := Store.spelt_ofCalls calls
  obtain ⟨final, hx⟩ := setAll_pairsFor hw hs environment
  refine ⟨final, hx, PropertySource.apply_of_setAll rfl hx, fun key hg => ?_, fun key hk => ?_⟩
  · obtain ⟨old, hg⟩ := Option.isSome_iff_exists.mp hg
    obtain ⟨path, hp, -⟩ := (Store.get?_iff hw).mp hg
    rw [get?_pairsFor hw hs hx hp hg]
    rfl
  · obtain ⟨⟨old, hg⟩, -⟩ := (Store.mem_keys_iff hw hs).mp hk
    obtain ⟨path, hp, -⟩ := (Store.get?_iff hw).mp hg
    by_cases hname : ∃ setting ∈ environment.settings, setting.1 = environment.nameFor key
    · exact .inl hname
    by_cases hspelt : ∃ setting ∈ environment.settings, ∃ other,
        environment.key? setting.1 = some other ∧ Key.path? other = Key.path? key
    · exact .inr (.inl hspelt)
    -- nothing is written at the path of the key
    have hown : environment.override? key = none := List.find?_eq_none.mpr fun setting hm he =>
      hname ⟨setting, hm, by simpa using he⟩
    have hnone : Store.textsAt path (environment.candidates (Store.ofCalls calls)) = [] := by
      refine Store.textsAt_eq_nil_iff.mpr fun pair hm he => ?_
      obtain ⟨setting, hmem, hkey⟩ := exists_of_mem_candidates hm
      exact hspelt ⟨setting, hmem, pair.1, hkey, he.trans hp.symm⟩
    refine .inr (.inr ?_)
    rw [get?_pairsFor hw hs hx hp hg, textsAt_overrides hw hs hk hp, hown, hnone, hg]
    rfl

end Environment
end BeanContainer
