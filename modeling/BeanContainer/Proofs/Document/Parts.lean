/-
# Documents part by part

A path of names and positions leads to a part of a document. In the store that a document fills, the
node at a path stands for the part of the document at that path. So the store holds the scalars of
the document, each under the key of its path, and there is nothing where the document has no scalar.

Key definitions: `Document.part?`, `Document.HasLeaf`, `Document.Held`.
Key theorems: `Document.node?_part?`, `Document.held`, `Document.flatten_faithful`.
-/
import BeanContainer.Proofs.Configuration
import BeanContainer.Proofs.Document.Flattening

namespace BeanContainer

namespace Children

variable {label other : Label} {child : Option Node} {rest : Children}

theorem find?_under (label other : Label) (child : Option Node) (rest : Children) :
    find? label (under other child rest) =
      if other = label then child.or (find? label rest) else find? label rest := by
  cases child with
  | none => simp [under]
  | some node => simp [under, find?]

/-- A step down from the branch with these children, if there is one. -/
theorem at?_gather (label : Label) (path : List Label) (children : Children) :
    (gather (Node.ofChildren label) children).bind (Node.at? (label :: path)) =
      (find? label children).bind (Node.at? path) := by
  unfold gather
  split
  · next he =>
    rw [List.isEmpty_iff.mp he]
    rfl
  · exact Node.at?_cons_of_branch? (Node.branch?_ofChildren rfl) path

theorem at?_gather_ne (kind : Label) (h : label.parentKind ≠ kind.parentKind) (path : List Label)
    (children : Children) :
    (gather (Node.ofChildren kind) children).bind (Node.at? (label :: path)) = none := by
  unfold gather
  split
  · rfl
  · rw [Option.bind_some, Node.at?_cons, Node.branch?_ofChildren_ne h, Option.bind_none]

end Children

namespace Document

/-- The part of a document at a path: a name leads to a member, a position to an item. -/
def part? : List Label → Document → Option Document
  | [], document => some document
  | .name name :: rest, object members => (members.lookup name).bind (part? rest)
  | .position index :: rest, array items => items[index]?.bind (part? rest)
  | _ :: _, _ => none

/-- A scalar stands somewhere in the document. -/
def HasLeaf (document : Document) : Prop :=
  ∃ path leaf, document.part? path = some leaf ∧ leaf.isScalar = true

variable {document part leaf : Document} {items : List Document} {members : Members}
  {path : List Label} {key text : String}

/-! ### One step down -/

theorem part?_scalar (h : document.isScalar = true) (label : Label) (rest : List Label) :
    document.part? (label :: rest) = none := by
  cases document <;> cases label <;> first | rfl | cases h

theorem lookup_mem {name : String} (h : members.lookup name = some part) :
    (name, part) ∈ members := by
  obtain ⟨front, back, rfl, -⟩ := List.lookup_eq_some_iff.mp h
  simp

theorem find?_itemNodes (items : List Document) (index offset : ℕ) :
    Children.find? (.position (index + offset)) (itemNodes index items) =
      items[offset]?.bind node? := by
  induction items generalizing index offset with
  | nil => rfl
  | cons item rest ih =>
    rw [itemNodes, Children.find?_under]
    rcases offset with _ | offset
    · rw [Nat.add_zero, if_pos rfl, List.getElem?_cons_zero, Option.bind_some]
      -- the items behind have higher positions
      rcases hf : Children.find? (.position index) (itemNodes (index + 1) rest) with _ | node
      · exact Option.or_none
      · obtain ⟨position, hl, hle, -⟩ := mem_itemNodes (Children.find?_mem hf)
        cases hl
        omega
    · have hne : Label.position index ≠ .position (index + (offset + 1)) := by
        simp
      rw [if_neg hne, List.getElem?_cons_succ, ← ih (index + 1) offset]
      congr 2
      omega

theorem find?_memberNodes (h : members.Pairwise fun a b => a.1 < b.1) (name : String) :
    Children.find? (.name name) (memberNodes members) = (members.lookup name).bind node? := by
  induction members with
  | nil => rfl
  | cons member rest ih =>
    obtain ⟨first, value⟩ := member
    obtain ⟨hfirst, hrest⟩ := List.pairwise_cons.mp h
    rw [memberNodes, Children.find?_under, List.lookup_cons]
    by_cases he : name = first
    · subst he
      rw [if_pos rfl, beq_self_eq_true]
      -- the members behind have other names
      rcases hf : Children.find? (.name name) (memberNodes rest) with _ | node
      · exact Option.or_none
      · obtain ⟨other, ho, hl, -⟩ := mem_memberNodes (Children.find?_mem hf)
        cases hl
        exact absurd (hfirst other ho) (String.lt_irrefl _)
    · rw [if_neg fun hl => he (Label.name.inj hl).symm, beq_false_of_ne he, ih hrest]

/-! ### Parts of a document -/

/-- The first step towards a part leads to a member or to an item. -/
theorem Named.step (h : document.Named) {label : Label} {rest : List Label}
    (hp : document.part? (label :: rest) = some part) :
    label.Valid ∧ ∃ child : Document, child.Named ∧ child.part? rest = some part := by
  cases h with
  | scalar hs =>
    rw [part?_scalar hs] at hp
    cases hp
  | array hlen hitems =>
    cases label with
    | name name => cases hp
    | position index =>
      obtain ⟨item, hi, hp⟩ := Option.bind_eq_some_iff.mp hp
      obtain ⟨hlt, -⟩ := List.getElem?_eq_some_iff.mp hi
      exact ⟨Nat.lt_of_lt_of_le hlt hlen, item, hitems item (List.mem_of_getElem? hi), hp⟩
  | object _ hnames hmembers =>
    cases label with
    | position index => cases hp
    | name name =>
      obtain ⟨value, hl, hp⟩ := Option.bind_eq_some_iff.mp hp
      exact ⟨hnames _ (lookup_mem hl), value, hmembers _ (lookup_mem hl), hp⟩

theorem Named.part? (h : document.Named) (hp : document.part? path = some part) : part.Named := by
  induction path generalizing document with
  | nil =>
    cases hp
    exact h
  | cons label rest ih =>
    obtain ⟨-, child, hc, hp⟩ := h.step hp
    exact ih hc hp

/-- The labels on the way to a part stand for segments of keys. -/
theorem Named.valid (h : document.Named) (hp : document.part? path = some part) :
    ∀ label ∈ path, label.Valid := by
  induction path generalizing document with
  | nil => exact nofun
  | cons label rest ih =>
    obtain ⟨hl, child, hc, hp⟩ := h.step hp
    exact List.forall_mem_cons.mpr ⟨hl, ih hc hp⟩

/-- **The node at a path stands for the part at that path.** -/
theorem node?_part? (h : document.Named) (path : List Label) :
    document.node?.bind (Node.at? path) = (document.part? path).bind node? := by
  induction path generalizing document with
  | nil => exact Option.bind_fun_some document.node?
  | cons label rest ih =>
    cases h with
    | scalar hs =>
      rw [node?_scalar hs, part?_scalar hs, Option.bind_some, Node.at?_value]
      rfl
    | @array items _ hitems =>
      cases label with
      | name name =>
        exact Children.at?_gather_ne (.position 0) (by simp [Label.parentKind]) rest (itemNodes 0 items)
      | position index =>
        have hfind := find?_itemNodes items 0 index
        rw [Nat.zero_add] at hfind
        refine (Children.at?_gather (.position index) rest (itemNodes 0 items)).trans ?_
        rw [hfind, Option.bind_assoc, Document.part?, Option.bind_assoc]
        exact Option.bind_congr fun item hi => ih (hitems item (List.mem_of_getElem? hi))
    | @object members hsorted _ hmembers =>
      cases label with
      | position index =>
        exact Children.at?_gather_ne (.name "") (by simp [Label.parentKind]) rest (memberNodes members)
      | name name =>
        refine (Children.at?_gather (.name name) rest (memberNodes members)).trans ?_
        rw [find?_memberNodes hsorted, Option.bind_assoc, Document.part?, Option.bind_assoc]
        exact Option.bind_congr fun value hv => ih (hmembers _ (lookup_mem hv))

theorem node?_eq_value_iff :
    document.node? = some (.value text) ↔ document.isScalar = true ∧ text = document.scalarText := by
  rcases hs : document.isScalar with _ | _
  · refine ⟨fun hn => absurd rfl (kind_node? hs hn), nofun⟩
  · simp [node?_scalar hs, eq_comm]

/-! ### The store of a document -/

/-- The store holds the scalars of the document and nothing else. -/
structure Held (document : Document) (store : Store) : Prop where
  /-- The keys of the store are the paths of the scalars. -/
  keys : ∀ key, key ∈ store.keys ↔
    ∃ path leaf, document.part? path = some leaf ∧ leaf.isScalar = true ∧ key = Key.ofLabels path
  /-- No two scalars have one key. -/
  once : store.keys.Nodup
  /-- At the path of a scalar stands its text. -/
  get : ∀ path leaf, document.part? path = some leaf → leaf.isScalar = true →
    store.get? (Key.ofLabels path) = some leaf.scalarText
  /-- There is something at a key when the key leads to a part with a scalar in it. -/
  has : ∀ key, store.has key = true ↔
    ∃ path part, Key.path? key = some path ∧ document.part? path = some part ∧ part.HasLeaf
  /-- Nothing is there at a part without a scalar or below it, however the key is spelt. -/
  bare : ∀ path part, document.part? path = some part → ¬ part.HasLeaf →
    ∀ key place, Key.path? key = some place → path <+: place → store.has key = false

/-- The entries of the store are the scalars of the document with their paths. -/
theorem mem_leaves_node?_iff (h : document.Named) :
    (path, text) ∈ Store.leaves ⟨document.node?⟩ ↔
      ∃ leaf, document.part? path = some leaf ∧ leaf.isScalar = true ∧ text = leaf.scalarText := by
  have hwf : Store.WellFormed ⟨document.node?⟩ := fun node hn => node?_wellFormed h hn
  have hat : Store.at? ⟨document.node?⟩ path = (document.part? path).bind node? :=
    node?_part? h path
  rw [Store.mem_leaves_iff hwf, hat, Option.bind_eq_some_iff]
  simp only [node?_eq_value_iff]

theorem part?_append (front back : List Label) (document : Document) :
    document.part? (front ++ back) = (document.part? front).bind (part? back) := by
  induction front generalizing document with
  | nil => rfl
  | cons label rest ih =>
    rw [List.cons_append]
    cases label <;> cases document <;> try rfl
    · next name members =>
      rw [part?, part?, Option.bind_assoc]
      exact Option.bind_congr fun value _ => ih value
    · next index items =>
      rw [part?, part?, Option.bind_assoc]
      exact Option.bind_congr fun item _ => ih item

theorem HasLeaf.of_part? (h : part.HasLeaf) (hp : document.part? path = some part) :
    document.HasLeaf := by
  obtain ⟨below, leaf, hb, hs⟩ := h
  exact ⟨path ++ below, leaf, by rw [part?_append, hp, Option.bind_some, hb], hs⟩

theorem has_node?_iff (h : document.Named) (key : String) :
    Store.has ⟨document.node?⟩ key = true ↔
      ∃ path part, Key.path? key = some path ∧ document.part? path = some part ∧ part.HasLeaf := by
  have hwf : Store.WellFormed ⟨document.node?⟩ := fun node hn => node?_wellFormed h hn
  rw [Store.has_iff hwf]
  constructor
  · rintro ⟨path, hk, ⟨_, text⟩, hl, below, rfl⟩
    obtain ⟨leaf, hp, hs, -⟩ := (mem_leaves_node?_iff h).mp hl
    rw [part?_append] at hp
    obtain ⟨part, hpart, hb⟩ := Option.bind_eq_some_iff.mp hp
    exact ⟨path, part, hk, hpart, below, leaf, hb, hs⟩
  · rintro ⟨path, part, hk, hp, below, leaf, hb, hs⟩
    have hleaf : document.part? (path ++ below) = some leaf := by
      rw [part?_append, hp, Option.bind_some, hb]
    exact ⟨path, hk, (path ++ below, leaf.scalarText),
      (mem_leaves_node?_iff h).mpr ⟨leaf, hleaf, hs, rfl⟩, List.prefix_append _ _⟩

/-- A document has a scalar in it when a node stands for it. -/
theorem hasLeaf_iff (h : document.Named) : document.HasLeaf ↔ document.node?.isSome = true := by
  have hroot : Store.has ⟨document.node?⟩ "" = document.node?.isSome := by
    rw [Store.has, Store.node?_eq, show Key.path? "" = some [] by cbv, Option.bind_some]
    rcases document.node? with _ | node <;> rfl
  rw [← hroot, has_node?_iff h]
  constructor
  · exact fun hl => ⟨[], document, by cbv, rfl, hl⟩
  · rintro ⟨path, part, hk, hp, hl⟩
    cases (show Key.path? "" = some [] by cbv).symm.trans hk
    cases hp
    exact hl

/-- The store of the node of a document holds the document. -/
theorem held (h : document.Named) (hs : document.isScalar = false) :
    document.Held ⟨document.node?⟩ := by
  have hwf : Store.WellFormed ⟨document.node?⟩ := fun node hn => node?_wellFormed h hn
  have hspelt : Store.Spelt ⟨document.node?⟩ := by
    rintro ⟨path, text⟩ hl
    obtain ⟨leaf, hp, hscalar, -⟩ := (mem_leaves_node?_iff h).mp hl
    refine ⟨fun he => ?_, h.valid hp⟩
    cases he
    cases hp
    rw [hs] at hscalar
    cases hscalar
  refine ⟨fun key => ?_, Store.nodup_keys hwf hspelt, fun path leaf hp hl => ?_, has_node?_iff h,
    fun path part hp hn key place hk hprefix => ?_⟩
  · rw [Store.mem_keys]
    constructor
    · rintro ⟨⟨path, text⟩, hl, rfl⟩
      obtain ⟨leaf, hp, hscalar, -⟩ := (mem_leaves_node?_iff h).mp hl
      exact ⟨path, leaf, hp, hscalar, rfl⟩
    · rintro ⟨path, leaf, hp, hscalar, rfl⟩
      exact ⟨(path, leaf.scalarText), (mem_leaves_node?_iff h).mpr ⟨leaf, hp, hscalar, rfl⟩, rfl⟩
  · exact (Store.get?_iff hwf).mpr
      ⟨path, Key.path?_ofLabels (h.valid hp), (mem_leaves_node?_iff h).mpr ⟨leaf, hp, hl, rfl⟩⟩
  · rw [Bool.eq_false_iff]
    intro hhas
    obtain ⟨_, below, hk', hbelow, hleaf⟩ := (has_node?_iff h key).mp hhas
    rw [hk] at hk'
    cases hk'
    obtain ⟨more, rfl⟩ := hprefix
    rw [part?_append, hp, Option.bind_some] at hbelow
    exact hn (hleaf.of_part? hbelow)

end Document

/-! ### The source of a document -/

/-- **Flattening a document is faithful.** For a document that is no scalar, whose members have single
segments of keys for names and stand in the order of the names, whatever its scalars are and wherever
it is empty: an empty store accepts all of its pairs, none of which takes the place of another one,
and holds the scalars of the document and nothing else. -/
theorem Document.flatten_faithful {document : Document} (h : document.Named)
    (hs : document.isScalar = false) (name : String) :
    ∃ pairs store, document.flatten? = some pairs ∧ Store.ofPairs pairs = .ok store ∧
      (PropertySource.document name document).apply .empty = (store, .ok pairs.length) ∧
      (pairs.map (·.1)).Perm store.keys ∧ document.Held store := by
  have hflat : document.flatten? = some (document.pairs "") := by
    unfold flatten?
    rw [hs]
    rfl
  have hstore := ofPairs_pairs h hs
  refine ⟨_, _, hflat, hstore, ?_, ?_, held h hs⟩
  · have hload : (PropertySource.document name document).load .empty = .ok (document.pairs "") := by
      simp only [PropertySource.load, hflat]
    exact PropertySource.apply_of_setAll hload hstore
  · rw [pairs_root h, List.map_map]
    exact (List.mergeSort_perm _ _).symm

/-- An array with nulls, numbers, and empty objects and arrays at several depths. -/
def sparse : Document :=
  .array [.null, .array [],
    .object [("a-b", .object [("_", .array [])]),
      ("n", .array [.float 0.5, .array [.null, .int (-7)]])],
    .object []]

theorem sparse_named : sparse.Named := by
  have hname : ∀ name ∈ ["a-b", "_", "n"], (Label.name name).Valid := by
    simp [Label.Valid, Key.isNameChar, Key.isDelimiter]
  have hempty : (Document.array []).Named := .array (Nat.zero_le _) (List.forall_mem_nil _)
  have hinner : (Document.object [("_", .array [])]).Named := by
    refine .object (List.pairwise_singleton _ _) ?_ ?_ <;> rw [List.forall_mem_singleton]
    · exact hname "_" (by simp)
    · exact hempty
  have hnumbers : (Document.array [.float 0.5, .array [.null, .int (-7)]]).Named := by
    have hlast : (Document.array [.null, .int (-7)]).Named := by
      refine .array (by simp [Label.positionBound]) ?_
      simp only [List.forall_mem_cons]
      exact ⟨.scalar rfl, .scalar rfl, List.forall_mem_nil _⟩
    refine .array (by simp [Label.positionBound]) ?_
    simp only [List.forall_mem_cons]
    exact ⟨.scalar rfl, hlast, List.forall_mem_nil _⟩
  have hobject : (Document.object [("a-b", .object [("_", .array [])]),
      ("n", .array [.float 0.5, .array [.null, .int (-7)]])]).Named := by
    refine .object (List.pairwise_pair.mpr (show "a-b" < "n" by cbv)) ?_ ?_ <;>
      simp only [List.forall_mem_cons]
    · exact ⟨hname "a-b" (by simp), hname "n" (by simp), List.forall_mem_nil _⟩
    · exact ⟨hinner, hnumbers, List.forall_mem_nil _⟩
  have hbare : (Document.object []).Named :=
    .object List.Pairwise.nil (List.forall_mem_nil _) (List.forall_mem_nil _)
  refine .array (by simp [Label.positionBound]) ?_
  simp only [List.forall_mem_cons]
  exact ⟨.scalar rfl, hempty, hobject, hbare, List.forall_mem_nil _⟩

/-- What is stored of `sparse`, and what is not. -/
theorem flatten_faithful_sparse : sparse.Named ∧ sparse.isScalar = false ∧
    ∃ pairs store, sparse.flatten? = some pairs ∧ Store.ofPairs pairs = .ok store ∧
      store.get? "[0]" = some "" ∧ store.get? "[2].n[1][1]" = some "-7" ∧
      "[2].n[0]" ∈ store.keys ∧ store.has "[1]" = false ∧ store.has "[2].a-b._[03]" = false := by
  refine ⟨sparse_named, rfl, ?_⟩
  obtain ⟨pairs, store, hf, hp, -, -, held⟩ := Document.flatten_faithful sparse_named rfl "sparse"
  have hnull := held.get [.position 0] .null rfl rfl
  have hint := held.get [.position 2, .name "n", .position 1, .position 1] (.int (-7))
    (by simp [sparse, Document.part?, List.lookup_cons]) rfl
  have hkey := (held.keys (Key.ofLabels [.position 2, .name "n", .position 0])).mpr
    ⟨_, .float 0.5, by simp [sparse, Document.part?, List.lookup_cons], rfl, rfl⟩
  have hbare : ∀ path part, sparse.part? path = some part → part.node?.isSome = false →
      ¬ part.HasLeaf := fun path part hpart hn hl => by
    rw [Document.hasLeaf_iff (sparse_named.part? hpart), hn] at hl
    cases hl
  have harray := held.bare [.position 1] _ rfl (hbare [.position 1] _ rfl rfl) "[1]" [.position 1]
    (by cbv) (List.prefix_refl _)
  have hobject := held.bare [.position 2, .name "a-b"] (.object [("_", .array [])])
    (by simp [sparse, Document.part?])
    (hbare [.position 2, .name "a-b"] _ (by simp [sparse, Document.part?]) rfl) "[2].a-b._[03]"
    [.position 2, .name "a-b", .name "_", .position 3] (by cbv) (by decide)
  exact ⟨pairs, store, hf, hp, hnull, hint, hkey, harray, hobject⟩

end BeanContainer
