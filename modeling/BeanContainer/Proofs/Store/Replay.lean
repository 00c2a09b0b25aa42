/-
# Stores made of their entries

A store is known by its entries: two stores with the same entries are equal. And the entries of a
store can be put into an empty one in any order; no call is refused, and what comes out is the store.

Key definitions: `Store.Below`, `Store.Within`, `Store.Spells`.
Key theorems: `Node.WellFormed.ext`, `Store.WellFormed.ext`, `Store.Below.admits`,
`Store.Within.set`, `Store.ofPairs_eq_ok`.
-/
import BeanContainer.Proofs.Store.Entries
import Mathlib.Data.List.Sort

namespace BeanContainer

/-! ### Equal entries -/

theorem Children.Sorted.ext {children others : Children} (h : children.Sorted) (h' : others.Sorted)
    (he : ∀ entry, entry ∈ children ↔ entry ∈ others) : children = others := by
  have hi : Std.Irrefl fun a b : Label × Node => a.1.lt b.1 = true :=
    ⟨fun a ha => by rw [Label.lt_irrefl] at ha; cases ha⟩
  have ha : Std.Antisymm fun a b : Label × Node => a.1.lt b.1 = true :=
    ⟨fun a b hab hba => absurd (Label.lt_trans hab hba) (hi.irrefl a)⟩
  exact List.Pairwise.eq_of_mem_iff h h' he

namespace Node

variable {node other : Node} {label : Label} {children : Children} {path : List Label}

theorem at?_ofChildren_cons {first : Label} (hp : children.Proper label.parentKind)
    (hk : first.parentKind = label.parentKind) {child : Node} (hm : (first, child) ∈ children)
    (path : List Label) : (ofChildren label children).at? (first :: path) = child.at? path := by
  rw [at?_cons_of_branch? (branch?_ofChildren hk), hp.sorted.find?_iff.mpr hm, Option.bind_some]

/-- A branch that leads to a text has a child on the way. -/
theorem exists_mem_of_at? (label : Label) {first : Label}
    (hn : (ofChildren label children).at? (first :: path) = some node) :
    ∃ child, (first, child) ∈ children ∧ first.parentKind = label.parentKind ∧
      child.at? path = some node := by
  rw [at?_cons] at hn
  obtain ⟨found, hb, hf⟩ := Option.bind_eq_some_iff.mp hn
  obtain ⟨child, hf, hc⟩ := Option.bind_eq_some_iff.mp hf
  have hk : first.parentKind = label.parentKind := by
    by_contra hk
    rw [branch?_ofChildren_ne hk] at hb
    cases hb
  rw [branch?_ofChildren hk] at hb
  cases hb
  exact ⟨child, Children.find?_mem hf, hk, hc⟩

/-- Nodes that lead to the same texts are equal. -/
theorem WellFormed.ext (h : node.WellFormed) (h' : other.WellFormed)
    (he : ∀ path text, node.at? path = some (.value text) ↔ other.at? path = some (.value text)) :
    node = other := by
  induction h using WellFormed.induct generalizing other with
  | value text =>
    have ho := (he [] text).mp rfl
    cases ho
    rfl
  | branch label children hp hc ih =>
    -- the other node is a branch of the same kind
    obtain ⟨path, text, ht⟩ := (wellFormed_ofChildren hp hc).leads
    obtain ⟨others, rfl⟩ : ∃ others, other = ofChildren label others := by
      rcases path with _ | ⟨first, path⟩
      · cases label <;> cases ht
      · obtain ⟨child, hm, hk, -⟩ := exists_mem_of_at? label ht
        have ho := (he _ text).mp ht
        rw [at?_cons] at ho
        obtain ⟨others, hb, -⟩ := Option.bind_eq_some_iff.mp ho
        refine ⟨others, (ofChildren_of_branch? hb).trans ?_⟩
        cases first <;> cases label <;> first | rfl | cases hk
    obtain ⟨hp', hc'⟩ := h'.branch (branch?_ofChildren rfl)
    -- children under one label lead to the same texts
    have hsame : ∀ first child child', (first, child) ∈ children → (first, child') ∈ others →
        child = child' := by
      intro first child child' hm hm'
      refine ih _ hm (hc' _ hm') fun path text => ?_
      have hk := hp.labels _ hm
      rw [← at?_ofChildren_cons hp hk hm, ← at?_ofChildren_cons hp' hk hm']
      exact he (first :: path) text
    congr 1
    refine hp.sorted.ext hp'.sorted fun ⟨first, child⟩ => ⟨fun hm => ?_, fun hm => ?_⟩
    · obtain ⟨path, text, ht⟩ := (hc _ hm).leads
      rw [← at?_ofChildren_cons hp (hp.labels _ hm) hm, he] at ht
      obtain ⟨child', hm', -⟩ := exists_mem_of_at? label ht
      exact hsame first child child' hm hm' ▸ hm'
    · obtain ⟨path, text, ht⟩ := (hc' _ hm).leads
      rw [← at?_ofChildren_cons hp' (hp'.labels _ hm) hm, ← he] at ht
      obtain ⟨child', hm', -⟩ := exists_mem_of_at? label ht
      exact hsame first child' child hm' hm ▸ hm'

end Node

namespace Store

variable {store whole next : Store} {key text : String} {path : List Label} {node : Node}

/-- Stores with the same entries are equal. -/
theorem WellFormed.ext {other : Store} (h : store.WellFormed) (h' : other.WellFormed)
    (he : ∀ leaf, leaf ∈ store.leaves ↔ leaf ∈ other.leaves) : store = other := by
  have hat : ∀ path text, store.at? path = some (.value text) ↔ other.at? path = some (.value text) :=
    fun path text => by rw [← mem_leaves_iff h, ← mem_leaves_iff h', he]
  obtain ⟨root⟩ := store
  obtain ⟨root'⟩ := other
  rcases root with _ | root <;> rcases root' with _ | root'
  · rfl
  · obtain ⟨path, text, ht⟩ := (h' root' rfl).leads
    cases (hat path text).mpr ht
  · obtain ⟨path, text, ht⟩ := (h root rfl).leads
    cases (hat path text).mp ht
  · rw [(h root rfl).ext (h' root' rfl) hat]

/-! ### Putting entries -/

theorem at?_append (store : Store) (front back : List Label) :
    store.at? (front ++ back) = (store.at? front).bind (Node.at? back) := by
  unfold Store.at?
  rw [Option.bind_assoc]
  exact Option.bind_congr fun root _ => Node.at?_append front back root

theorem WellFormed.at? (h : store.WellFormed) (hn : store.at? path = some node) :
    node.WellFormed := by
  obtain ⟨root, hr, hn⟩ := Option.bind_eq_some_iff.mp hn
  exact (h root hr).at? hn

/-- Above a node stands a branch with room for the next label. -/
theorem exists_branch {label : Label} {rest : List Label}
    (hb : (store.at? (path ++ label :: rest)).isSome = true) :
    ∃ children, store.at? path = some (.ofChildren label children) := by
  obtain ⟨below, hb⟩ := Option.isSome_iff_exists.mp hb
  rw [at?_append] at hb
  obtain ⟨node, hn, hb⟩ := Option.bind_eq_some_iff.mp hb
  rw [Node.at?_cons] at hb
  obtain ⟨children, hc, -⟩ := Option.bind_eq_some_iff.mp hb
  exact ⟨children, Node.ofChildren_of_branch? hc ▸ hn⟩

theorem kind_of_at?_cons {label : Label} {rest : List Label}
    (hn : store.at? path = some node) (hb : (store.at? (path ++ label :: rest)).isSome = true) :
    node.kind = label.parentKind := by
  obtain ⟨children, hc⟩ := exists_branch hb
  rw [hn] at hc
  cases hc
  exact Node.kind_ofChildren label children

/-- Wherever a text stands in the store, one stands in `whole`. -/
structure Below (store whole : Store) : Prop where
  wellFormed : store.WellFormed
  wellFormed_whole : whole.WellFormed
  paths : ∀ leaf ∈ store.leaves, ∃ text, (leaf.1, text) ∈ whole.leaves

namespace Below

theorem refl (h : store.WellFormed) : store.Below store := ⟨h, h, fun leaf hl => ⟨leaf.2, hl⟩⟩

/-- What a node is, is told by the paths of the texts alone. -/
theorem kind (h : store.Below whole) (hn : store.at? path = some node) :
    ∃ node', whole.at? path = some node' ∧ node'.kind = node.kind := by
  obtain ⟨below, text, ht⟩ := (h.wellFormed.at? hn).leads
  have hs : store.at? (path ++ below) = some (.value text) := by
    rw [at?_append, hn, Option.bind_some, ht]
  obtain ⟨text', hl⟩ := h.paths _ ((mem_leaves_iff h.wellFormed).mpr hs)
  have hs' := (mem_leaves_iff h.wellFormed_whole).mp hl
  obtain ⟨node', hn', ht'⟩ := Option.bind_eq_some_iff.mp (at?_append whole path below ▸ hs')
  refine ⟨node', hn', ?_⟩
  rcases below with _ | ⟨label, rest⟩
  · cases ht
    cases ht'
    rfl
  · rw [kind_of_at?_cons hn' (by rw [hs']; rfl), kind_of_at?_cons hn (by rw [hs]; rfl)]

/-- Where a text stands in `whole`, no branch stands. -/
theorem kind_value {old : String} (h : store.Below whole) (hl : (path, old) ∈ whole.leaves)
    (hn : store.at? path = some node) : node.kind = .value := by
  obtain ⟨node', hn', hk⟩ := h.kind hn
  rw [(mem_leaves_iff h.wellFormed_whole).mp hl] at hn'
  cases hn'
  exact hk.symm

/-- Where a text stands in `whole`, any text can be put. -/
theorem admits {old : String} (h : store.Below whole) (hl : (path, old) ∈ whole.leaves)
    (text : String) : Node.Admits store.root path text where
  above front label back he node hn := by
    obtain ⟨node', hn', hk⟩ := h.kind hn
    rw [← hk]
    exact kind_of_at?_cons hn' (by rw [← he, (mem_leaves_iff h.wellFormed_whole).mp hl]; rfl)
  here node hn := .inl (h.kind_value hl hn)

end Below

/-- All entries of the store are entries of `whole`. -/
structure Within (store whole : Store) : Prop where
  wellFormed : store.WellFormed
  wellFormed_whole : whole.WellFormed
  subset : ∀ leaf ∈ store.leaves, leaf ∈ whole.leaves

theorem Within.empty (h : whole.WellFormed) : Within .empty whole :=
  ⟨wellFormed_empty, h, nofun⟩

theorem Within.below (h : store.Within whole) : store.Below whole :=
  ⟨h.wellFormed, h.wellFormed_whole, fun leaf hm => ⟨leaf.2, h.subset leaf hm⟩⟩

/-- An entry of `whole` can be put into any store within it. -/
theorem Within.set (h : store.Within whole) (hk : Key.path? key = some path) (hne : path ≠ [])
    (hl : (path, text) ∈ whole.leaves) :
    ∃ next, store.set key text = .ok next ∧ next.Within whole ∧
      ∀ leaf, leaf ∈ next.leaves ↔ leaf ∈ store.leaves ∨ leaf = (path, text) := by
  have hw := (mem_leaves_iff h.wellFormed_whole).mp hl
  obtain ⟨root, hr⟩ := Node.write_ok_iff.mpr (h.below.admits hl text)
  have hx : store.set key text = .ok ⟨some root⟩ := set_ok_iff.mpr ⟨path, root, hk, hne, hr, rfl⟩
  have hwf := h.wellFormed.set hx
  have hleaves : ∀ leaf, leaf ∈ leaves ⟨some root⟩ ↔ leaf ∈ store.leaves ∨ leaf = (path, text) := by
    rintro ⟨other, t⟩
    have hat : (other, t) ∈ leaves ⟨some root⟩ ↔
        if other = path then t = text else (other, t) ∈ store.leaves := by
      rw [mem_leaves_iff hwf, mem_leaves_iff h.wellFormed]
      exact Node.at?_write hr fun node hn => h.below.kind_value hl hn
    rw [hat]
    by_cases he : other = path
    · subst he
      rw [if_pos rfl, Prod.mk.injEq]
      refine ⟨fun ht => .inr ⟨rfl, ht⟩, fun ht => ht.elim (fun hs => ?_) And.right⟩
      have hs' := (mem_leaves_iff h.wellFormed_whole).mp (h.subset _ hs)
      rw [hw] at hs'
      cases hs'
      rfl
    · simp [he]
  refine ⟨_, hx, ⟨hwf, h.wellFormed_whole, fun leaf hm => ?_⟩, hleaves⟩
  rcases (hleaves leaf).mp hm with hm | rfl
  · exact h.subset leaf hm
  · exact hl

/-- The key of the pair spells the path of the entry, and the text is the same. -/
def Spells (pair : String × String) (leaf : List Label × String) : Prop :=
  Key.path? pair.1 = some leaf.1 ∧ leaf.1 ≠ [] ∧ pair.2 = leaf.2

theorem Within.setAll (h : store.Within whole) {pairs : List (String × String)}
    (hp : ∀ pair ∈ pairs, ∃ leaf ∈ whole.leaves, Spells pair leaf) :
    ∃ next, store.setAll pairs = .ok next ∧ next.Within whole ∧
      ∀ leaf, leaf ∈ next.leaves ↔ leaf ∈ store.leaves ∨ ∃ pair ∈ pairs, Spells pair leaf := by
  induction pairs generalizing store with
  | nil => exact ⟨store, rfl, h, by simp⟩
  | cons pair rest ih =>
    obtain ⟨key, text⟩ := pair
    rw [List.forall_mem_cons] at hp
    obtain ⟨⟨⟨path, t⟩, hl, hk, hne, rfl⟩, hrest⟩ := hp
    obtain ⟨middle, hx, hm, hleaves⟩ := h.set hk hne hl
    obtain ⟨next, hx', hn, hleaves'⟩ := ih hm hrest
    refine ⟨next, ?_, hn, fun leaf => ?_⟩
    · unfold Store.setAll at hx' ⊢
      rw [List.foldlM_cons]
      simp only [hx]
      exact hx'
    · have hs : Spells (key, text) leaf ↔ leaf = (path, text) := by
        obtain ⟨other, t⟩ := leaf
        simp only [Spells, hk, Option.some.injEq, Prod.mk.injEq]
        constructor
        · rintro ⟨rfl, -, rfl⟩
          exact ⟨rfl, rfl⟩
        · rintro ⟨rfl, rfl⟩
          exact ⟨rfl, hne, rfl⟩
      rw [hleaves', hleaves, List.exists_mem_cons_iff, hs, or_assoc]

/-- **The entries of a store, put into an empty one in any order, build the store.** -/
theorem ofPairs_eq_ok (h : store.WellFormed) {pairs : List (String × String)}
    (hp : ∀ pair ∈ pairs, ∃ leaf ∈ store.leaves, Spells pair leaf)
    (hl : ∀ leaf ∈ store.leaves, ∃ pair ∈ pairs, Spells pair leaf) :
    ofPairs pairs = .ok store := by
  obtain ⟨next, hx, hn, hleaves⟩ := (Within.empty h).setAll hp
  rw [ofPairs, hx, hn.wellFormed.ext h fun leaf => ?_]
  rw [hleaves]
  exact ⟨fun hm => hm.elim nofun fun ⟨pair, hm, hs⟩ => hn.subset leaf
    ((hleaves leaf).mpr (.inr ⟨pair, hm, hs⟩)), fun hm => .inr (hl leaf hm)⟩

end Store
end BeanContainer
