/-
# Documents in the store

A document stands for a node of the store: its scalars are texts, its objects maps and its arrays
arrays, without the members and items that hold no scalar. The pairs of the document are the entries
of that node, and put into an empty store they build it.

Key definitions: `Document.node?`, `Document.Named`.
Key theorems: `Document.node?_wellFormed`, `Document.pairs_eq`, `Document.pairs_root`,
`Document.ofPairs_pairs`.
-/
import BeanContainer.Document.Basic
import BeanContainer.Proofs.Store.Replay

namespace BeanContainer

namespace Children

/-- Puts a child, if there is one, in front of others. -/
def under (label : Label) : Option Node → Children → Children
  | none, rest => rest
  | some child, rest => (label, child) :: rest

/-- The branch with these children; none if there are no children. -/
def gather (branch : Children → Node) (children : Children) : Option Node :=
  if children.isEmpty then none else some (branch children)

theorem mem_under {label : Label} {child : Option Node} {rest : Children} {entry : Label × Node} :
    entry ∈ under label child rest ↔ (entry.1 = label ∧ child = some entry.2) ∨ entry ∈ rest := by
  obtain ⟨other, node⟩ := entry
  cases child <;> simp [under, eq_comm]

end Children

namespace Document

mutual

/-- The node that stands for a document; none stands for one without a scalar. -/
def node? : Document → Option Node
  | array items => Children.gather .array (itemNodes 0 items)
  | object members => Children.gather .map (memberNodes members)
  | scalar => some (.value scalar.scalarText)

/-- The children for the items of an array from position `index` on. -/
def itemNodes (index : ℕ) : List Document → Children
  | [] => []
  | item :: rest => Children.under (.position index) item.node? (itemNodes (index + 1) rest)

/-- The children for the members of an object. -/
def memberNodes : Members → Children
  | [] => []
  | (name, value) :: rest => Children.under (.name name) value.node? (memberNodes rest)

end

/-- The members of all objects have names for keys and stand in the order of the names; the items of
all arrays have positions. -/
inductive Named : Document → Prop
  | scalar {document : Document} : document.isScalar = true → Named document
  | array {items : List Document} : items.length ≤ Label.positionBound →
      (∀ item ∈ items, Named item) → Named (array items)
  | object {members : Members} : (members.Pairwise fun a b => a.1 < b.1) →
      (∀ member ∈ members, (Label.name member.1).Valid) → (∀ member ∈ members, Named member.2) →
      Named (object members)

variable {document : Document} {items : List Document} {members : Members}

theorem node?_scalar (h : document.isScalar = true) :
    document.node? = some (.value document.scalarText) := by
  cases document <;> first | rfl | cases h

theorem pairs_scalar (h : document.isScalar = true) (key : String) :
    document.pairs key = [(key, document.scalarText)] := by
  cases document <;> first | rfl | cases h

/-! ### Children of a document -/

theorem mem_itemNodes {entry : Label × Node} {index : ℕ} (h : entry ∈ itemNodes index items) :
    ∃ position, entry.1 = .position position ∧ index ≤ position ∧
      position < index + items.length ∧ ∃ item ∈ items, item.node? = some entry.2 := by
  induction items generalizing index with
  | nil => cases h
  | cons item rest ih =>
    rw [List.length_cons]
    rcases Children.mem_under.mp h with ⟨hl, hn⟩ | hm
    · exact ⟨index, hl, Nat.le_refl _, by omega, item, List.mem_cons_self, hn⟩
    · obtain ⟨position, hl, hle, hlt, other, ho, hn⟩ := ih hm
      exact ⟨position, hl, by omega, by omega, other, List.mem_cons_of_mem _ ho, hn⟩

theorem mem_memberNodes {entry : Label × Node} (h : entry ∈ memberNodes members) :
    ∃ member ∈ members, entry.1 = .name member.1 ∧ member.2.node? = some entry.2 := by
  induction members with
  | nil => cases h
  | cons member rest ih =>
    rcases Children.mem_under.mp h with ⟨hl, hn⟩ | hm
    · exact ⟨member, List.mem_cons_self, hl, hn⟩
    · obtain ⟨other, ho, hl, hn⟩ := ih hm
      exact ⟨other, List.mem_cons_of_mem _ ho, hl, hn⟩

theorem memberNodes_mem {member : String × Document} (h : member ∈ members) {node : Node}
    (hn : member.2.node? = some node) : (.name member.1, node) ∈ memberNodes members := by
  induction members with
  | nil => cases h
  | cons first rest ih =>
    unfold memberNodes
    rw [Children.mem_under]
    rcases List.mem_cons.mp h with rfl | h
    · exact .inl ⟨rfl, hn⟩
    · exact .inr (ih h)

theorem itemNodes_sorted (items : List Document) (index : ℕ) :
    (itemNodes index items).Sorted := by
  induction items generalizing index with
  | nil => exact List.Pairwise.nil
  | cons item rest ih =>
    unfold itemNodes
    rcases item.node? with _ | node
    · exact ih (index + 1)
    · refine List.pairwise_cons.mpr ⟨fun entry he => ?_, ih (index + 1)⟩
      obtain ⟨position, hl, hle, -⟩ := mem_itemNodes he
      rw [hl]
      exact decide_eq_true (by omega : index < position)

theorem memberNodes_sorted (h : members.Pairwise fun a b => a.1 < b.1) :
    (memberNodes members).Sorted := by
  induction members with
  | nil => exact List.Pairwise.nil
  | cons member rest ih =>
    obtain ⟨hfirst, hrest⟩ := List.pairwise_cons.mp h
    unfold memberNodes
    rcases member.2.node? with _ | node
    · exact ih hrest
    · refine List.pairwise_cons.mpr ⟨fun entry he => ?_, ih hrest⟩
      obtain ⟨other, ho, hl, -⟩ := mem_memberNodes he
      rw [hl]
      exact decide_eq_true (hfirst other ho)

theorem of_gather {branch : Children → Node} {children : Children} {node : Node}
    (h : Children.gather branch children = some node) : children ≠ [] ∧ node = branch children := by
  unfold Children.gather at h
  split at h
  · cases h
  · next hne =>
    cases h
    exact ⟨fun he => hne (he ▸ rfl), rfl⟩

/-- The node of a document is well formed. -/
theorem node?_wellFormed (h : document.Named) {node : Node} (hn : document.node? = some node) :
    node.WellFormed := by
  induction h generalizing node with
  | scalar hs =>
    rw [node?_scalar hs] at hn
    cases hn
    exact .value _
  | @array items hlen hitems ih =>
    obtain ⟨hne, rfl⟩ := of_gather hn
    refine .array ⟨hne, itemNodes_sorted items 0, fun entry he => ?_⟩ fun entry he => ?_
    · obtain ⟨position, hl, -⟩ := mem_itemNodes he
      rw [hl, Label.parentKind]
    · obtain ⟨-, -, -, -, item, hi, hn⟩ := mem_itemNodes he
      exact ih item hi hn
  | @object members hsorted hnames hmembers ih =>
    obtain ⟨hne, rfl⟩ := of_gather hn
    refine .map ⟨hne, memberNodes_sorted hsorted, fun entry he => ?_⟩ fun entry he => ?_
    · obtain ⟨member, -, hl, -⟩ := mem_memberNodes he
      rw [hl, Label.parentKind]
    · obtain ⟨member, hm, -, hn⟩ := mem_memberNodes he
      exact ih member hm hn

/-! ### Pairs of a document -/

/-- The entries of a node that may be missing, as pairs of keys and texts. -/
def entries (path : List Label) (node? : Option Node) : List (String × String) :=
  (node?.elim [] (·.leaves path)).map fun leaf => (Key.ofLabels leaf.1, leaf.2)

/-- The entries of children, as pairs of keys and texts. -/
def childEntries (path : List Label) (children : Children) : List (String × String) :=
  (Node.childLeaves path children).map fun leaf => (Key.ofLabels leaf.1, leaf.2)

theorem childEntries_under (path : List Label) (label : Label) (child : Option Node)
    (rest : Children) : childEntries path (Children.under label child rest) =
      entries (path ++ [label]) child ++ childEntries path rest := by
  cases child with
  | none => rfl
  | some node => exact List.map_append

theorem entries_gather {branch : Children → Node} (path : List Label) (children : Children)
    (hb : (branch children).leaves path = Node.childLeaves path children) :
    entries path (Children.gather branch children) = childEntries path children := by
  unfold Children.gather
  split
  · next he =>
    rw [List.isEmpty_iff.mp he]
    rfl
  · unfold entries childEntries
    rw [Option.elim_some, hb]

theorem itemPairs_eq {path : List Label} (hp : ∀ label ∈ path, label.Valid) (index : ℕ)
    (hlen : index + items.length ≤ Label.positionBound)
    (ih : ∀ item ∈ items, ∀ path : List Label, (∀ label ∈ path, label.Valid) →
      item.pairs (Key.ofLabels path) = entries path item.node?) :
    itemPairs (Key.ofLabels path) index items = childEntries path (itemNodes index items) := by
  induction items generalizing index with
  | nil => rfl
  | cons item rest ih' =>
    rw [List.length_cons] at hlen
    rw [List.forall_mem_cons] at ih
    have hvalid : ∀ label ∈ path ++ [.position index], label.Valid := by
      rw [List.forall_mem_append, List.forall_mem_singleton]
      exact ⟨hp, show index < Label.positionBound by omega⟩
    have hrest := ih' (index + 1) (by omega) ih.2
    rw [itemPairs, itemNodes, childEntries_under, ← Key.ofLabels_position, ih.1 _ hvalid, hrest]

theorem memberPairs_eq {path : List Label} (hp : ∀ label ∈ path, label.Valid)
    (hnames : ∀ member ∈ members, (Label.name member.1).Valid)
    (ih : ∀ member ∈ members, ∀ path : List Label, (∀ label ∈ path, label.Valid) →
      member.2.pairs (Key.ofLabels path) = entries path member.2.node?) :
    memberPairs (Key.ofLabels path) members = childEntries path (memberNodes members) := by
  induction members with
  | nil => rfl
  | cons member rest ih' =>
    obtain ⟨name, value⟩ := member
    rw [List.forall_mem_cons] at hnames ih
    have hvalid : ∀ label ∈ path ++ [.name name], label.Valid := by
      rw [List.forall_mem_append, List.forall_mem_singleton]
      exact ⟨hp, hnames.1⟩
    rw [memberPairs, memberNodes, childEntries_under, ← Key.ofLabels_name hp, ih.1 _ hvalid,
      ih' hnames.2 ih.2]

/-- The pairs of a document are the entries of its node, in order. -/
theorem pairs_eq (h : document.Named) {path : List Label} (hp : ∀ label ∈ path, label.Valid) :
    document.pairs (Key.ofLabels path) = entries path document.node? := by
  induction h generalizing path with
  | scalar hs =>
    rw [node?_scalar hs, pairs_scalar hs]
    rfl
  | @array items hlen hitems ih =>
    rw [pairs, node?, entries_gather path _ rfl]
    exact itemPairs_eq hp 0 (by omega) fun item hi path hp => ih item hi hp
  | @object members hsorted hnames hmembers ih =>
    rw [pairs, node?, entries_gather path _ rfl]
    exact memberPairs_eq hp hnames fun member hm path hp => ih member hm hp

/-- The pairs of a document are the entries of the store that holds its node, in order. -/
theorem pairs_root (h : document.Named) : document.pairs "" =
    (Store.leaves ⟨document.node?⟩).map fun leaf => (Key.ofLabels leaf.1, leaf.2) := by
  have hroot : ∀ label ∈ ([] : List Label), label.Valid := nofun
  refine (pairs_eq h hroot).trans ?_
  unfold entries Store.leaves
  rcases document.node? with _ | node <;> rfl

/-! ### The node from the pairs -/

/-- The labels in the node of a document stand for segments of keys. -/
theorem valid_of_leaf (h : document.Named) {node : Node} (hn : document.node? = some node)
    {path : List Label} {text : String} (ht : node.at? path = some (.value text)) :
    ∀ label ∈ path, label.Valid := by
  induction h generalizing node path with
  | scalar hs =>
    rw [node?_scalar hs] at hn
    cases hn
    rw [Node.at?_value] at ht
    split at ht
    · next he => exact he ▸ nofun
    · cases ht
  | @array items hlen hitems ih =>
    obtain ⟨-, rfl⟩ := of_gather hn
    rcases path with _ | ⟨first, rest⟩
    · exact nofun
    · obtain ⟨child, hm, -, hc⟩ := Node.exists_mem_of_at? (.position 0) ht
      obtain ⟨position, hl, -, hlt, item, hi, hn⟩ := mem_itemNodes hm
      have hfirst : first.Valid := by
        rw [show first = _ from hl]
        exact show position < Label.positionBound by omega
      exact List.forall_mem_cons.mpr ⟨hfirst, ih item hi hn hc⟩
  | @object members hsorted hnames hmembers ih =>
    obtain ⟨-, rfl⟩ := of_gather hn
    rcases path with _ | ⟨first, rest⟩
    · exact nofun
    · obtain ⟨child, hm, -, hc⟩ := Node.exists_mem_of_at? (.name "") ht
      obtain ⟨member, hmem, hl, hn⟩ := mem_memberNodes hm
      have hfirst : first.Valid := by
        rw [show first = _ from hl]
        exact hnames member hmem
      exact List.forall_mem_cons.mpr ⟨hfirst, ih member hmem hn hc⟩

theorem kind_node? (hs : document.isScalar = false) {node : Node}
    (hn : document.node? = some node) : node.kind ≠ .value := by
  cases document with
  | array items =>
    obtain ⟨-, rfl⟩ := of_gather hn
    nofun
  | object members =>
    obtain ⟨-, rfl⟩ := of_gather hn
    nofun
  | _ => cases hs

/-- **The pairs of a document build its node.** -/
theorem ofPairs_pairs (h : document.Named) (hs : document.isScalar = false) :
    Store.ofPairs (document.pairs "") = .ok ⟨document.node?⟩ := by
  have hwf : Store.WellFormed ⟨document.node?⟩ := fun node hn => node?_wellFormed h hn
  have hspells : ∀ leaf ∈ Store.leaves ⟨document.node?⟩,
      Store.Spells (Key.ofLabels leaf.1, leaf.2) leaf := by
    rintro ⟨path, text⟩ hl
    obtain ⟨node, hn, ht⟩ := Option.bind_eq_some_iff.mp ((Store.mem_leaves_iff hwf).mp hl)
    refine ⟨Key.path?_ofLabels (valid_of_leaf h hn ht), fun he => ?_, rfl⟩
    cases he
    cases ht
    exact kind_node? hs hn rfl
  rw [pairs_root h]
  refine Store.ofPairs_eq_ok hwf (fun pair hp => ?_) fun leaf hl => ?_
  · obtain ⟨leaf, hl, rfl⟩ := List.mem_map.mp hp
    exact ⟨leaf, hl, hspells leaf hl⟩
  · exact ⟨_, List.mem_map_of_mem hl, hspells leaf hl⟩

end Document
end BeanContainer
