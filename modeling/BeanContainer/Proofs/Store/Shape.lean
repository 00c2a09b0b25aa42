/-
# Writes one after the other

What a sequence of writes leaves at a path where a text stands, and which stores accept the same
writes: those whose texts stand at the same paths, whatever the texts are.

Key definitions: `Store.textsAt`, `Store.SameShape`.
Key theorems: `Store.setAll_leaf`, `Store.SameShape.set`, `Store.setAll_sameShape`.
-/
import BeanContainer.Proofs.Store.Listing

namespace BeanContainer
namespace Store

variable {store other next : Store} {key text old : String} {path : List Label}
  {pairs : List (String × String)}

/-! ### Sequences of writes -/

theorem setAll_cons (store : Store) (pair : String × String) (rest : List (String × String)) :
    store.setAll (pair :: rest) = (store.set pair.1 pair.2).bind (Store.setAll · rest) := by
  unfold setAll
  rw [List.foldlM_cons]
  rfl

theorem setAll_append (store : Store) (front back : List (String × String)) :
    store.setAll (front ++ back) = (store.setAll front).bind (Store.setAll · back) := by
  unfold setAll
  rw [List.foldlM_append]
  rfl

theorem setAll_cons_of_ok {pair : String × String} {rest : List (String × String)}
    (hx : store.set pair.1 pair.2 = .ok next) : store.setAll (pair :: rest) = next.setAll rest := by
  rw [setAll_cons, hx]
  rfl

theorem setAll_append_of_ok {front back : List (String × String)}
    (hx : store.setAll front = .ok next) : store.setAll (front ++ back) = next.setAll back := by
  rw [setAll_append, hx]
  rfl

theorem WellFormed.setAll (h : store.WellFormed) (hx : store.setAll pairs = .ok next) :
    next.WellFormed := by
  induction pairs generalizing store with
  | nil =>
    cases hx
    exact h
  | cons pair rest ih =>
    rcases hs : store.set pair.1 pair.2 with fault | middle
    · rw [setAll_cons, hs] at hx
      cases hx
    · rw [setAll_cons_of_ok hs] at hx
      exact ih (h.set hs) hx

/-- Every key of pairs that were put into a store spells a path. -/
theorem path?_of_setAll (h : store.setAll pairs = .ok next) :
    ∀ pair ∈ pairs, ∃ path, Key.path? pair.1 = some path ∧ path ≠ [] := by
  induction pairs generalizing store with
  | nil => nofun
  | cons pair rest ih =>
    rcases hs : store.set pair.1 pair.2 with fault | middle
    · rw [setAll_cons, hs] at h
      cases h
    · rw [setAll_cons_of_ok hs] at h
      obtain ⟨path, root, hp, hne, -⟩ := set_ok_iff.mp hs
      exact List.forall_mem_cons.mpr ⟨⟨path, hp, hne⟩, ih h⟩

/-- The texts of the pairs whose keys spell the path. -/
def textsAt (path : List Label) (pairs : List (String × String)) : List String :=
  pairs.filterMap fun pair => if Key.path? pair.1 = some path then some pair.2 else none

theorem textsAt_cons (path : List Label) (pair : String × String) (rest : List (String × String)) :
    textsAt path (pair :: rest) =
      if Key.path? pair.1 = some path then pair.2 :: textsAt path rest else textsAt path rest := by
  unfold textsAt
  rw [List.filterMap_cons]
  by_cases hp : Key.path? pair.1 = some path <;> simp [hp]

theorem textsAt_append (path : List Label) (front back : List (String × String)) :
    textsAt path (front ++ back) = textsAt path front ++ textsAt path back :=
  List.filterMap_append

theorem textsAt_eq_nil_iff :
    textsAt path pairs = [] ↔ ∀ pair ∈ pairs, Key.path? pair.1 ≠ some path := by
  unfold textsAt
  rw [List.filterMap_eq_nil_iff]
  exact forall₂_congr fun pair _ => by by_cases hp : Key.path? pair.1 = some path <;> simp [hp]

/-- What an accepted write does to the entries: it puts its text, or it changes nothing since a
branch stands at its path. -/
theorem set_leaves (h : store.WellFormed) (hk : Key.path? key = some path)
    (hx : store.set key text = .ok next) :
    (∃ node, store.at? path = some node ∧ node.kind ≠ .value) ∧ next = store ∨
      (∀ node, store.at? path = some node → node.kind = .value) ∧
        ∀ place t, (place, t) ∈ next.leaves ↔
          if place = path then t = text else (place, t) ∈ store.leaves := by
  obtain ⟨path', root, hk', -, hw, rfl⟩ := set_ok_iff.mp hx
  rw [hk] at hk'
  cases hk'
  by_cases hv : ∀ node, store.at? path = some node → node.kind = .value
  · refine .inr ⟨hv, fun place t => ?_⟩
    rw [mem_leaves_iff (h.set hx), mem_leaves_iff h]
    exact Node.at?_write hw hv
  · push Not at hv
    obtain ⟨node, hn, hne⟩ := hv
    refine .inl ⟨⟨node, hn, hne⟩, ?_⟩
    have hsame := Node.write_branch hw h hn hne
    rw [← hsame]

/-- A text that stands in the store is replaced by a write at its path, and by no other. -/
theorem set_leaf (h : store.WellFormed) (hl : (path, old) ∈ store.leaves)
    (hx : store.set key text = .ok next) :
    (path, if Key.path? key = some path then text else old) ∈ next.leaves := by
  obtain ⟨place, root, hk, -⟩ := set_ok_iff.mp hx
  rcases set_leaves h hk hx with ⟨⟨node, hn, hne⟩, rfl⟩ | ⟨-, hleaves⟩
  · have hp : Key.path? key ≠ some path := fun hp => by
      rw [hk] at hp
      cases hp
      rw [(mem_leaves_iff h).mp hl] at hn
      cases hn
      exact hne rfl
    rwa [if_neg hp]
  · rw [hleaves, hk]
    by_cases hp : path = place
    · simp [hp]
    · rw [if_neg hp, if_neg fun he => hp (Option.some.inj he).symm]
      exact hl

/-- **A text that stands in the store becomes the last of the texts that are written at its
path.** -/
theorem setAll_leaf (h : store.WellFormed) (hl : (path, old) ∈ store.leaves)
    (hx : store.setAll pairs = .ok next) :
    (path, (textsAt path pairs).getLast?.getD old) ∈ next.leaves := by
  induction pairs generalizing store old with
  | nil =>
    cases hx
    exact hl
  | cons pair rest ih =>
    rcases hs : store.set pair.1 pair.2 with fault | middle
    · rw [setAll_cons, hs] at hx
      cases hx
    · rw [setAll_cons_of_ok hs] at hx
      have hlast := ih (h.set hs) (set_leaf h hl hs) hx
      rw [textsAt_cons]
      split at hlast
      · next hp =>
        rw [if_pos hp, List.getLast?_cons]
        exact hlast
      · next hp =>
        rw [if_neg hp]
        exact hlast

/-! ### Stores of one shape -/

/-- The texts of the two stores stand at the same paths. -/
structure SameShape (store other : Store) : Prop where
  wellFormed : store.WellFormed
  wellFormed_other : other.WellFormed
  paths : ∀ path, (∃ text, (path, text) ∈ store.leaves) ↔ ∃ text, (path, text) ∈ other.leaves

namespace SameShape

theorem refl (h : store.WellFormed) : store.SameShape store := ⟨h, h, fun _ => .rfl⟩

theorem symm (h : store.SameShape other) : other.SameShape store :=
  ⟨h.wellFormed_other, h.wellFormed, fun path => (h.paths path).symm⟩

theorem trans {third : Store} (h : store.SameShape other) (h' : other.SameShape third) :
    store.SameShape third :=
  ⟨h.wellFormed, h'.wellFormed_other, fun path => (h.paths path).trans (h'.paths path)⟩

theorem below (h : store.SameShape other) : store.Below other :=
  ⟨h.wellFormed, h.wellFormed_other, fun leaf hl => (h.paths leaf.1).mp ⟨leaf.2, hl⟩⟩

theorem admits (h : store.SameShape other) (ha : Node.Admits store.root path text) :
    Node.Admits other.root path text where
  above front label back he node hn := by
    obtain ⟨node', hn', hk⟩ := h.symm.below.kind hn
    rw [← hk]
    exact ha.above front label back he node' hn'
  here node hn := by
    obtain ⟨node', hn', hk⟩ := h.symm.below.kind hn
    rw [← hk]
    exact ha.here node' hn'

/-- Stores of one shape accept the same writes, and stay of one shape. -/
theorem set (h : store.SameShape other) (hx : store.set key text = .ok next) :
    ∃ next', other.set key text = .ok next' ∧ next.SameShape next' := by
  obtain ⟨path, root, hk, hne, hw, -⟩ := set_ok_iff.mp hx
  obtain ⟨root', hw'⟩ := Node.write_ok_iff.mpr (h.admits (Node.write_ok_iff.mp ⟨root, hw⟩))
  have hx' : other.set key text = .ok ⟨some root'⟩ :=
    set_ok_iff.mpr ⟨path, root', hk, hne, hw', rfl⟩
  refine ⟨_, hx', h.wellFormed.set hx, h.wellFormed_other.set hx', fun place => ?_⟩
  rcases set_leaves h.wellFormed hk hx with ⟨⟨node, hn, hkind⟩, rfl⟩ | ⟨hv, hleaves⟩
  · -- a branch stands at the path in both stores
    rcases set_leaves h.wellFormed_other hk hx' with ⟨-, hsame⟩ | ⟨hv', -⟩
    · rw [hsame]
      exact h.paths place
    · obtain ⟨node', hn', hkind'⟩ := h.below.kind hn
      exact absurd (hkind'.symm.trans (hv' node' hn')) hkind
  · rcases set_leaves h.wellFormed_other hk hx' with ⟨⟨node, hn, hkind⟩, -⟩ | ⟨-, hleaves'⟩
    · obtain ⟨node', hn', hkind'⟩ := h.symm.below.kind hn
      exact absurd (hkind'.symm.trans (hv node' hn')) hkind
    · simp only [hleaves, hleaves']
      by_cases hp : place = path
      · simp [hp]
      · simpa [hp] using h.paths place

end SameShape

/-! ### Writes where texts stand -/

/-- Where a text stands any text can be written, and the shape stays. -/
theorem set_sameShape (h : store.WellFormed) (hk : Key.path? key = some path) (hne : path ≠ [])
    (hl : (path, old) ∈ store.leaves) (text : String) :
    ∃ next, store.set key text = .ok next ∧ store.SameShape next := by
  obtain ⟨root', hw'⟩ := Node.write_ok_iff.mpr ((Below.refl h).admits hl text)
  have hx' : store.set key text = .ok ⟨some root'⟩ :=
    set_ok_iff.mpr ⟨path, root', hk, hne, hw', rfl⟩
  refine ⟨_, hx', h, h.set hx', fun place => ?_⟩
  rcases set_leaves h hk hx' with ⟨⟨node, hn, hkind⟩, -⟩ | ⟨-, hleaves⟩
  · exact absurd ((Below.refl h).kind_value hl hn) hkind
  · simp only [hleaves]
    by_cases hp : place = path
    · simpa [hp] using ⟨old, hl⟩
    · simp [hp]

/-- Writes at paths where texts stand are all accepted, and the shape stays. -/
theorem setAll_sameShape (h : store.WellFormed)
    (hp : ∀ pair ∈ pairs, ∃ leaf ∈ store.leaves, Key.path? pair.1 = some leaf.1 ∧ leaf.1 ≠ []) :
    ∃ next, store.setAll pairs = .ok next ∧ store.SameShape next := by
  induction pairs generalizing store with
  | nil => exact ⟨store, rfl, .refl h⟩
  | cons pair rest ih =>
    rw [List.forall_mem_cons] at hp
    obtain ⟨⟨⟨path, old⟩, hl, hk, hne⟩, hrest⟩ := hp
    obtain ⟨middle, hs, hm⟩ := set_sameShape h hk hne hl pair.2
    obtain ⟨next, hx, hn⟩ := ih hm.wellFormed_other fun other ho => by
      obtain ⟨leaf, hl', hk', hne'⟩ := hrest other ho
      obtain ⟨text, hl''⟩ := (hm.paths leaf.1).mp ⟨leaf.2, hl'⟩
      exact ⟨(leaf.1, text), hl'', hk', hne'⟩
    exact ⟨next, (setAll_cons_of_ok hs).trans hx, hm.trans hn⟩

end Store
end BeanContainer
