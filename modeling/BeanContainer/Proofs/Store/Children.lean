/-
# The children of a node

The labels that are listed below a key are those of the tree: names of a map in the order of their
bytes, positions of an array as numbers, and each is listed if and only if something is there. The
listing is refused for a malformed key and for the key of a text, and only then. Going down from the
root, from listing to listing, one comes by the keys of all texts, as they are spelt canonically.

Key definitions: `Store.Listing`, `Store.Lists`.
Key theorems: `Store.listing`, `Store.lists_iff`, `Store.subKeys_exact`.
-/
import BeanContainer.Proofs.Store.Subtree
import Mathlib.Data.Set.List
import Mathlib.Logic.Relation

namespace BeanContainer

/-! ### Labels of one kind -/

namespace Children.Proper

variable {children : Children}

/-- The labels of children are of one kind, and in their order. -/
theorem of_kind {α : Type} {kind : NodeKind} (h : children.Proper kind) (f : α → Label)
    (hf : ∀ label : Label, label.parentKind = kind → ∃ a, f a = label) :
    ∃ as : List α, children.map (·.1) = as.map f ∧
      as.Pairwise fun a b => (f a).lt (f b) = true := by
  have hm : children.map (·.1) ∈ Set.range (List.map f) := by
    rw [Set.range_list_map]
    intro label hl
    obtain ⟨entry, he, rfl⟩ := List.mem_map.mp hl
    exact hf entry.1 (h.labels entry he)
  obtain ⟨as, has⟩ := hm
  have horder : (as.map f).Pairwise fun a b => a.lt b = true :=
    has ▸ List.pairwise_map.mpr h.sorted
  exact ⟨as, has.symm, List.pairwise_map.mp horder⟩

/-- The labels of a map are names in the order of their bytes. -/
theorem names (h : children.Proper .map) : ∃ names : List String,
    children.map (·.1) = names.map .name ∧
      names.Pairwise fun a b => Text.bytes a < Text.bytes b := by
  obtain ⟨names, hnames, horder⟩ := h.of_kind .name fun
    | .name name, _ => ⟨name, rfl⟩
  exact ⟨names, hnames, horder.imp fun hlt => Text.bytes_lt (of_decide_eq_true hlt)⟩

/-- The labels of an array are positions in the order of the numbers. -/
theorem positions (h : children.Proper .array) : ∃ positions : List ℕ,
    children.map (·.1) = positions.map .position ∧ positions.Pairwise (· < ·) := by
  obtain ⟨positions, hpositions, horder⟩ := h.of_kind .position fun
    | .position index, _ => ⟨index, rfl⟩
  exact ⟨positions, hpositions, horder.imp fun hlt => of_decide_eq_true hlt⟩

end Children.Proper

namespace Store

variable {store : Store} {key child : String} {path : List Label} {node : Node}
  {children : Children} {label : Label}

/-! ### Children on the way -/

/-- Labels on the way to a node stand for segments of keys. -/
theorem Spelt.valid_of_at? (hs : store.Spelt) (hw : store.WellFormed)
    (hn : (store.at? path).isSome = true) : ∀ label ∈ path, label.Valid := by
  obtain ⟨leaf, hl, below, hb⟩ := (at?_isSome_iff hw).mp hn
  intro label hm
  exact (hs leaf hl).2 label (hb ▸ List.mem_append_left below hm)

/-- The children of a branch are those that one step leads to. -/
theorem mem_labels_iff (label : Label) (hw : store.WellFormed)
    (hn : store.at? path = some (.ofChildren label children)) :
    ∀ other : Label, other ∈ children.map (·.1) ↔
      other.parentKind = label.parentKind ∧ (store.at? (path ++ [other])).isSome = true := by
  obtain ⟨hp, -⟩ := (hw.at? hn).branch (Node.branch?_ofChildren rfl)
  intro other
  rw [at?_append, hn, Option.bind_some]
  constructor
  · rw [List.mem_map]
    rintro ⟨entry, hm, rfl⟩
    have hk := hp.labels entry hm
    exact ⟨hk, by rw [Node.at?_ofChildren_cons hp hk hm]; rfl⟩
  · rintro ⟨-, hs⟩
    obtain ⟨below, hs⟩ := Option.isSome_iff_exists.mp hs
    obtain ⟨child, hm, -⟩ := Node.exists_mem_of_at? label hs
    exact List.mem_map.mpr ⟨_, hm, rfl⟩

theorem has_eq (hp : Key.path? key = some path) : store.has key = (store.at? path).isSome := by
  rw [has, node?_eq, hp, Option.bind_some]

/-- Names of children are valid. -/
theorem has_under_name_iff (hw : store.WellFormed) (hs : store.Spelt)
    (hp : Key.path? key = some path) (name : String) :
    (Label.name name).Valid ∧ store.has (Key.under key name) = true ↔
      (store.at? (path ++ [.name name])).isSome = true := by
  constructor
  · rintro ⟨hv, hh⟩
    rwa [has_eq (Key.path?_under_name hp hv)] at hh
  · intro hn
    have hv : (Label.name name).Valid := hs.valid_of_at? hw hn _ (by simp)
    exact ⟨hv, by rwa [has_eq (Key.path?_under_name hp hv)]⟩

/-- Positions of children are in bounds. -/
theorem has_under_position_iff (hw : store.WellFormed) (hs : store.Spelt)
    (hp : Key.path? key = some path) (index : ℕ) :
    store.has (Key.under key (Segment.ofIndex index).shown) = true ↔
      (store.at? (path ++ [.position index])).isSome = true := by
  constructor
  · intro hh
    rcases hk : Key.path? (Key.under key (Segment.ofIndex index).shown) with _ | below
    · rw [has, node?_eq, hk] at hh
      cases hh
    · obtain ⟨front, hf, -, rfl⟩ := Key.of_path?_under_position hk
      rw [hp] at hf
      cases hf
      rwa [has_eq hk] at hh
  · intro hn
    have hv : (Label.position index).Valid := hs.valid_of_at? hw hn _ (by simp)
    rwa [has_eq (Key.path?_under_position hp hv)]

/-! ### Listings -/

/-- What the listing of the children at a key gives. -/
structure Listing (store : Store) (key : String) : Prop where
  /-- It is refused as malformed when no segments spell the key. -/
  malformed : store.subKeys key = .error (.invalidKey key) ↔
    ∀ segments, (∀ segment ∈ segments, segment.Valid) → Key.join segments ≠ key
  /-- It is refused as a conflict at a text. -/
  conflict : store.subKeys key = .error (.kindConflict key .value key) ↔
    ∃ text, store.get? key = some text
  /-- There is no other fault. -/
  fault : ∀ fault, store.subKeys key = .error fault →
    fault = .invalidKey key ∨ fault = .kindConflict key .value key
  /-- Nothing is listed where nothing is. -/
  missing : (∃ segments, Key.split key = .ok segments) → store.has key = false →
    store.subKeys key = .ok []
  /-- Below a map stand the names that lead on, in the order of their bytes. -/
  names : ∀ children, store.node? key = some (.map children) →
    ∃ names, store.subKeys key = .ok names ∧
      (names.Pairwise fun a b => Text.bytes a < Text.bytes b) ∧
      ∀ name, name ∈ names ↔ (Label.name name).Valid ∧ store.has (Key.under key name) = true
  /-- Below an array stand the positions that lead on, in the order of the numbers. -/
  positions : ∀ children, store.node? key = some (.array children) →
    ∃ positions : List ℕ, store.subKeys key = .ok (positions.map Nat.repr) ∧
      positions.Pairwise (· < ·) ∧
      ∀ index, index ∈ positions ↔
        store.has (Key.under key (Segment.ofIndex index).shown) = true

/-- The outcomes of a listing, by the key and the node that it leads to. -/
theorem subKeys_cases (store : Store) (key : String) :
    (Key.split key = .error (.invalidKey key) ∧ store.subKeys key = .error (.invalidKey key)) ∨
      (∃ segments, Key.split key = .ok segments) ∧
        ((store.node? key = none ∧ store.subKeys key = .ok []) ∨
          (∃ text, store.node? key = some (.value text) ∧
            store.subKeys key = .error (.kindConflict key .value key)) ∨
          ∃ label children, store.node? key = some (.ofChildren label children) ∧
            store.subKeys key = .ok (children.map (·.1.text))) := by
  rcases Key.split_cases key with ⟨segments, hs⟩ | hs
  · refine .inr ⟨⟨segments, hs⟩, ?_⟩
    unfold subKeys
    rw [hs]
    rcases hn : store.node? key with _ | ⟨text⟩ | children | children
    · exact .inl ⟨rfl, rfl⟩
    · exact .inr (.inl ⟨text, rfl, rfl⟩)
    · exact .inr (.inr ⟨.name "", children, rfl, rfl⟩)
    · exact .inr (.inr ⟨.position 0, children, rfl, rfl⟩)
  · refine .inl ⟨hs, ?_⟩
    unfold subKeys
    rw [hs]
    rfl

theorem subKeys_branch (label : Label)
    (hn : store.node? key = some (.ofChildren label children)) :
    store.subKeys key = .ok ((children.map (·.1)).map Label.text) := by
  rcases subKeys_cases store key with ⟨he, -⟩ | ⟨-, ⟨hnone, -⟩ | ⟨text, hv, -⟩ |
    ⟨other, others, ho, hsub⟩⟩
  · unfold node? at hn
    rw [he] at hn
    cases hn
  · rw [hn] at hnone
    cases hnone
  · rw [hn] at hv
    cases label <;> cases hv
  · rw [hsub, List.map_map]
    rw [hn] at ho
    cases label <;> cases other <;> cases ho <;> rfl

theorem malformed_iff (store : Store) (key : String) :
    store.subKeys key = .error (.invalidKey key) ↔
      ∀ segments, (∀ segment ∈ segments, segment.Valid) → Key.join segments ≠ key := by
  rw [← Key.split_eq_error]
  rcases subKeys_cases store key with ⟨he, hsub⟩ | ⟨⟨segments, ho⟩, ⟨-, hsub⟩ | ⟨text, -, hsub⟩ |
    ⟨label, children, -, hsub⟩⟩
  · exact iff_of_true hsub he
  all_goals exact iff_of_false (by rw [hsub]; nofun) (by rw [ho]; nofun)

theorem conflict_iff (store : Store) (key : String) :
    store.subKeys key = .error (.kindConflict key .value key) ↔
      ∃ text, store.get? key = some text := by
  simp only [get?_eq_some_iff]
  rcases subKeys_cases store key with ⟨he, hsub⟩ | ⟨-, ⟨hn, hsub⟩ | ⟨text, hn, hsub⟩ |
    ⟨label, children, hn, hsub⟩⟩
  · have hn : store.node? key = none := by
      unfold node?
      rw [he]
    exact iff_of_false (by rw [hsub]; nofun) (by rw [hn]; nofun)
  · exact iff_of_false (by rw [hsub]; nofun) (by rw [hn]; nofun)
  · exact iff_of_true hsub ⟨text, hn⟩
  · refine iff_of_false (by rw [hsub]; nofun) ?_
    rw [hn]
    cases label <;> nofun

/-- What is listed at a key is what is there. -/
theorem listing (hw : store.WellFormed) (hs : store.Spelt) (key : String) :
    store.Listing key where
  malformed := malformed_iff store key
  conflict := conflict_iff store key
  fault fault hf := by
    rcases subKeys_cases store key with ⟨-, hsub⟩ | ⟨-, ⟨-, hsub⟩ | ⟨text, -, hsub⟩ |
      ⟨label, children, -, hsub⟩⟩ <;> rw [hsub] at hf <;> cases hf
    · exact .inl rfl
    · exact .inr rfl
  missing := by
    rintro ⟨segments, hk⟩ hh
    have hn : store.node? key = none := by simpa [has] using hh
    unfold subKeys
    rw [hk, hn]
    rfl
  names children hn := by
    obtain ⟨path, hp, hat⟩ := Option.bind_eq_some_iff.mp (node?_eq store key ▸ hn)
    obtain ⟨names, hnames, horder⟩ :=
      ((hw.at? hat).branch (show Node.branch? _ (.name "") = some _ from rfl)).1.names
    have htexts : (names.map Label.name).map Label.text = names := by
      rw [List.map_map]
      exact List.map_id names
    refine ⟨names, ?_, horder, fun name => ?_⟩
    · rw [subKeys_branch (.name "") hn, hnames, htexts]
    · rw [has_under_name_iff hw hs hp]
      have hmem := mem_labels_iff (.name "") hw hat (.name name)
      rw [hnames] at hmem
      simpa [Label.parentKind] using hmem
  positions children hn := by
    obtain ⟨path, hp, hat⟩ := Option.bind_eq_some_iff.mp (node?_eq store key ▸ hn)
    obtain ⟨positions, hpositions, horder⟩ :=
      ((hw.at? hat).branch (show Node.branch? _ (.position 0) = some _ from rfl)).1.positions
    refine ⟨positions, ?_, horder, fun index => ?_⟩
    · rw [subKeys_branch (.position 0) hn, hpositions, List.map_map]
      rfl
    · rw [has_under_position_iff hw hs hp]
      have hmem := mem_labels_iff (.position 0) hw hat (.position index)
      rw [hpositions] at hmem
      simpa [Label.parentKind] using hmem

/-! ### Going down -/

/-- One of the children that are listed at a key, by its own key. -/
inductive Lists (store : Store) (key : String) : String → Prop
  | name {children : Children} {names : List String} {name : String} :
      store.node? key = some (.map children) → store.subKeys key = .ok names → name ∈ names →
      Lists store key (Key.under key name)
  | position {children : Children} {positions : List String} {digits : String} :
      store.node? key = some (.array children) → store.subKeys key = .ok positions →
      digits ∈ positions → Lists store key (Key.under key (Segment.position digits).shown)

/-- From a canonical key one comes to the canonical keys of the nodes that are one step down. -/
theorem lists_iff (hw : store.WellFormed) (hs : store.Spelt) (hv : ∀ label ∈ path, label.Valid) :
    store.Lists (Key.ofLabels path) child ↔
      ∃ label, child = Key.ofLabels (path ++ [label]) ∧
        (store.at? (path ++ [label])).isSome = true := by
  have hp := Key.path?_ofLabels hv
  have hlisting := listing hw hs (Key.ofLabels path)
  constructor
  · rintro (⟨hn, hsub, hm⟩ | ⟨hn, hsub, hm⟩)
    · obtain ⟨names, hsub', -, hmem⟩ := hlisting.names _ hn
      rw [hsub] at hsub'
      cases hsub'
      obtain ⟨hname, hh⟩ := (hmem _).mp hm
      exact ⟨.name _, Key.under_name hv hname, (has_under_name_iff hw hs hp _).mp ⟨hname, hh⟩⟩
    · obtain ⟨positions, hsub', -, hmem⟩ := hlisting.positions _ hn
      rw [hsub] at hsub'
      cases hsub'
      obtain ⟨index, hi, rfl⟩ := List.mem_map.mp hm
      have hat := (has_under_position_iff hw hs hp index).mp ((hmem index).mp hi)
      have hvalid := hs.valid_of_at? hw hat (.position index) (by simp)
      exact ⟨.position index, Key.under_position hv hvalid, hat⟩
  · rintro ⟨label, rfl, hat⟩
    have hvalid := hs.valid_of_at? hw hat label (by simp)
    obtain ⟨children, hbranch⟩ := exists_branch hat
    have hn : store.node? (Key.ofLabels path) = some (.ofChildren label children) := by
      rw [node?_eq, hp, Option.bind_some, hbranch]
    cases label with
    | name name =>
      obtain ⟨names, hsub, -, hmem⟩ := hlisting.names children hn
      rw [← Key.under_name hv hvalid]
      exact .name hn hsub ((hmem name).mpr ((has_under_name_iff hw hs hp name).mpr hat))
    | position index =>
      obtain ⟨positions, hsub, -, hmem⟩ := hlisting.positions children hn
      have hi := (hmem index).mpr ((has_under_position_iff hw hs hp index).mpr hat)
      rw [← Key.under_position hv hvalid]
      exact .position hn hsub (List.mem_map_of_mem hi)

/-- From the root one comes to the canonical key of every node. -/
theorem lists_of_at? (hw : store.WellFormed) (hs : store.Spelt)
    (hn : (store.at? path).isSome = true) :
    Relation.ReflTransGen store.Lists "" (Key.ofLabels path) := by
  induction path using List.reverseRecOn with
  | nil => exact .refl
  | append_singleton front label ih =>
    have hvalid := List.forall_mem_append.mp (hs.valid_of_at? hw hn)
    obtain ⟨children, hbranch⟩ := exists_branch hn
    exact (ih (by rw [hbranch]; rfl)).tail ((lists_iff hw hs hvalid.1).mpr ⟨label, rfl, hn⟩)

/-- Every key that one comes to is canonical. -/
theorem exists_path_of_lists (hw : store.WellFormed) (hs : store.Spelt)
    (h : Relation.ReflTransGen store.Lists "" key) :
    ∃ path, (∀ label ∈ path, label.Valid) ∧ key = Key.ofLabels path := by
  induction h with
  | refl => exact ⟨[], nofun, rfl⟩
  | tail _ hlast ih =>
    obtain ⟨path, hv, rfl⟩ := ih
    obtain ⟨label, rfl, hat⟩ := (lists_iff hw hs hv).mp hlast
    exact ⟨path ++ [label], hs.valid_of_at? hw hat, rfl⟩

/-- **The listing of children matches the tree**, whatever calls the store went through. At every key
it is refused as malformed or as the key of a text, or lists exactly the children in their order. And
the keys of the store are those of texts to which the listings lead from the root. -/
theorem subKeys_exact (calls : List (String × String)) :
    (∀ key, (ofCalls calls).Listing key) ∧
      ∀ key, key ∈ (ofCalls calls).keys ↔
        Relation.ReflTransGen (ofCalls calls).Lists "" key ∧
          ∃ text, (ofCalls calls).get? key = some text := by
  have hw := wellFormed_ofCalls calls
  have hs := spelt_ofCalls calls
  refine ⟨listing hw hs, fun key => ?_⟩
  rw [mem_keys_iff hw hs, and_comm]
  refine and_congr_left fun ⟨text, hg⟩ => ⟨fun hc => ?_, fun hr => ?_⟩
  · obtain ⟨path, hp, hl⟩ := (get?_iff hw).mp hg
    rw [← Key.ofLabels_of_canonical hp hc]
    exact lists_of_at? hw hs (by rw [(mem_leaves_iff hw).mp hl]; rfl)
  · obtain ⟨path, hv, rfl⟩ := exists_path_of_lists hw hs hr
    exact Key.canonical_ofLabels hv

example : (ofCalls [("b[10]", "y"), ("b[007]", "x"), ("b-", "")]).subKeys "b" =
    .ok ["7", "10"] := by cbv

end Store
end BeanContainer
