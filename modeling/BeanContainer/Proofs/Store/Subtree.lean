/-
# Below a node

Below a node that is no array there is nothing at a position, whatever the key of the node looks like.
And a store may hold nothing but one node, at the end of a path; it is built by the texts of the node,
put at their keys.

Key definitions: `Node.nested`, `Store.holding`, `Node.ofTexts`, `Store.elements`.
Key theorems: `Key.of_path?_under_position`, `Store.array_of_node?_position`,
`Store.ofPairs_elements`.
-/
import BeanContainer.Proofs.Store.Shape

namespace BeanContainer

/-! ### Keys with a position at the end -/

theorem mem_mapIdx_iff {α β : Type} {f : ℕ → α → β} {as : List α} {b : β} :
    b ∈ as.mapIdx f ↔ ∃ index, ∃ a ∈ as[index]?, f index a = b := by
  simp only [List.mem_mapIdx, Option.mem_def, List.getElem?_eq_some_iff]
  constructor
  · rintro ⟨index, hi, rfl⟩
    exact ⟨index, _, ⟨hi, rfl⟩, rfl⟩
  · rintro ⟨index, _, ⟨hi, rfl⟩, rfl⟩
    exact ⟨index, hi, rfl⟩

namespace Key

variable {key : String} {index : ℕ} {path : List Label}

/-- A position stands right behind what it is relative to. -/
theorem under_position_shown (key digits : String) :
    under key (Segment.position digits).shown = key ++ (Segment.position digits).shown := by
  by_cases hk : key = ""
  · rw [hk, empty_under, String.empty_append]
  · have hj : joint (Segment.position digits).shown = "" := by simp [joint, Segment.shown]
    rw [under_of_ne hk (by simp [Segment.shown]), hj, String.append_empty]

/-- The path of a member of a map leads on from the map's. -/
theorem path?_under_name (hp : path? key = some path) {name : String}
    (hn : (Label.name name).Valid) : path? (under key name) = some (path ++ [.name name]) := by
  have hs : name = ofLabels [.name name] := String.append_empty.symm
  have hsub := path?_ofLabels (List.forall_mem_singleton.mpr hn)
  rw [← hs] at hsub
  rw [path?_under, hp, hsub, Option.bind_some, Option.map_some]

/-- A position on its own spells a path if it is in bounds. -/
theorem path?_position (index : ℕ) : path? (Segment.ofIndex index).shown =
    if index < Label.positionBound then some [.position index] else none := by
  have hvalid := List.forall_mem_singleton.mpr (Segment.ofIndex_valid index)
  have hs : (Segment.ofIndex index).shown = join [Segment.ofIndex index] := String.append_empty.symm
  rw [path?_eq, hs, segments?_join hvalid, Option.bind_some, labels?, List.mapM_cons,
    Label.ofSegment?_ofIndex]
  split <;> rfl

/-- The path of an element of an array leads on from the array's. -/
theorem path?_under_position (hp : path? key = some path) (hi : (Label.position index).Valid) :
    path? (under key (Segment.ofIndex index).shown) = some (path ++ [.position index]) := by
  have hlt : index < Label.positionBound := hi
  rw [path?_under, hp, path?_position, if_pos hlt, Option.bind_some, Option.map_some]

/-- A key of an element has a path only if the element's position is in bounds. -/
theorem of_path?_under_position (h : path? (under key (Segment.ofIndex index).shown) = some path) :
    ∃ front, path? key = some front ∧ (Label.position index).Valid ∧
      path = front ++ [.position index] := by
  rw [path?_under] at h
  obtain ⟨front, hf, h⟩ := Option.bind_eq_some_iff.mp h
  obtain ⟨back, hb, rfl⟩ := Option.map_eq_some_iff.mp h
  rw [path?_position] at hb
  split_ifs at hb with hi
  cases hb
  exact ⟨front, hf, hi, rfl⟩

end Key

/-! ### Nodes at the end of a path -/

namespace Node

variable {node : Node} {path : List Label}

/-- The node that holds `node` at the path and nothing else. -/
def nested (node : Node) : List Label → Node
  | [] => node
  | label :: rest => ofChildren label [(label, nested node rest)]

theorem proper_singleton (label : Label) (node : Node) :
    Children.Proper label.parentKind [(label, node)] :=
  Children.Proper.put List.Pairwise.nil (by simp) rfl node

theorem wellFormed_nested (h : node.WellFormed) (path : List Label) :
    (nested node path).WellFormed := by
  induction path with
  | nil => exact h
  | cons label rest ih => exact wellFormed_ofChildren (proper_singleton label _) (by simpa using ih)

theorem at?_nested (node : Node) (path : List Label) : (nested node path).at? path = some node := by
  induction path with
  | nil => rfl
  | cons label rest ih =>
    rw [nested, at?_ofChildren_cons (proper_singleton label _) rfl List.mem_cons_self, ih]

theorem leaves_nested (node : Node) (base path : List Label) :
    (nested node path).leaves base = node.leaves (base ++ path) := by
  induction path generalizing base with
  | nil => rw [nested, List.append_nil]
  | cons label rest ih =>
    rw [nested, leaves_ofChildren, List.flatMap_singleton, ih, List.append_assoc,
      List.singleton_append]

end Node

namespace Store

variable {store : Store} {key : String} {path : List Label} {node : Node} {index : ℕ}

/-- Below a node that is no array there is nothing at a position. -/
theorem array_of_node?_position
    (h : store.node? (Key.under key (Segment.ofIndex index).shown) = some node) :
    ∃ children, store.node? key = some (.array children) := by
  rw [node?_eq] at h ⊢
  obtain ⟨path, hp, hn⟩ := Option.bind_eq_some_iff.mp h
  obtain ⟨front, hf, -, rfl⟩ := Key.of_path?_under_position hp
  obtain ⟨children, hc⟩ := exists_branch (by rw [hn]; rfl)
  exact ⟨children, by rw [hf, Option.bind_some, hc]; rfl⟩

theorem node?_position_of_ne (index : ℕ) (h : ∀ children, store.node? key ≠ some (.array children)) :
    store.node? (Key.under key (Segment.ofIndex index).shown) = none := by
  rw [Option.eq_none_iff_forall_ne_some]
  intro node hn
  obtain ⟨children, hc⟩ := array_of_node?_position hn
  exact h children hc

/-- The store that holds `node` at the path and nothing else. -/
def holding (path : List Label) (node : Node) : Store := ⟨some (node.nested path)⟩

theorem at?_holding (path : List Label) (node : Node) : (holding path node).at? path = some node :=
  node.at?_nested path

theorem node?_holding (hk : Key.path? key = some path) (node : Node) :
    (holding path node).node? key = some node := by
  rw [node?_eq, hk, Option.bind_some, at?_holding]

theorem leaves_holding (path : List Label) (node : Node) :
    (holding path node).leaves = node.leaves path :=
  node.leaves_nested [] path

theorem wellFormed_holding (h : node.WellFormed) (path : List Label) :
    (holding path node).WellFormed := by
  rintro root ⟨⟩
  exact Node.wellFormed_nested h path

end Store

/-! ### Texts in an array -/

namespace Node

variable {items : List String}

/-- The array of the texts. -/
def ofTexts (items : List String) : Node :=
  array (items.mapIdx fun index item => (.position index, .value item))

theorem wellFormed_ofTexts (hne : items ≠ []) : (ofTexts items).WellFormed := by
  refine .array ⟨?_, ?_, ?_⟩ ?_
  · simpa using hne
  · unfold Children.Sorted
    rw [List.pairwise_iff_getElem]
    intro i j _ _ hij
    simpa [Label.lt] using hij
  · intro entry he
    obtain ⟨index, item, -, rfl⟩ := mem_mapIdx_iff.mp he
    rfl
  · intro entry he
    obtain ⟨index, item, -, rfl⟩ := mem_mapIdx_iff.mp he
    exact .value item

theorem at?_ofTexts {index : ℕ} {item : String} (hi : item ∈ items[index]?) :
    (ofTexts items).at? [.position index] = some (.value item) := by
  have hne : items ≠ [] := by
    rintro rfl
    cases hi
  have hb : (ofTexts items).branch? (.position index) =
      some (items.mapIdx fun index item => (.position index, .value item)) := rfl
  have hfound := ((wellFormed_ofTexts hne).branch hb).1.sorted.find?_iff.mpr
    (mem_mapIdx_iff.mpr ⟨index, item, hi, rfl⟩)
  rw [at?_cons_of_branch? hb, hfound]
  rfl

theorem mem_leaves_ofTexts {base : List Label} {leaf : List Label × String} :
    leaf ∈ (ofTexts items).leaves base ↔
      ∃ index, ∃ item ∈ items[index]?, leaf = (base ++ [.position index], item) := by
  have hleaves : (ofTexts items).leaves base =
      (items.mapIdx fun index item => (Label.position index, value item)).flatMap
        fun entry => entry.2.leaves (base ++ [entry.1]) :=
    leaves_ofChildren base (.position 0) _
  rw [hleaves, List.mem_flatMap]
  constructor
  · rintro ⟨entry, he, hl⟩
    obtain ⟨index, item, hi, rfl⟩ := mem_mapIdx_iff.mp he
    exact ⟨index, item, hi, List.mem_singleton.mp hl⟩
  · rintro ⟨index, item, hi, rfl⟩
    exact ⟨_, mem_mapIdx_iff.mpr ⟨index, item, hi, rfl⟩, List.mem_singleton.mpr rfl⟩

end Node

namespace Store

variable {key : String} {items : List String} {path : List Label}

/-- The items with the keys that they have as elements of an array at `key`. -/
def elements (key : String) (items : List String) : List (String × String) :=
  items.mapIdx fun index item => (key ++ (Segment.ofIndex index).shown, item)

theorem ofPairs_singleton (hk : Key.path? key = some path) (hne : path ≠ []) (text : String) :
    ofPairs [(key, text)] = .ok (holding path (.value text)) := by
  have hspells : Spells (key, text) (path, text) := ⟨hk, hne, rfl⟩
  refine ofPairs_eq_ok (wellFormed_holding (.value text) path) ?_ ?_
  · rw [leaves_holding, List.forall_mem_singleton]
    exact ⟨_, List.mem_singleton.mpr rfl, hspells⟩
  · rw [leaves_holding]
    intro leaf hl
    rw [List.mem_singleton.mp hl]
    exact ⟨_, List.mem_singleton.mpr rfl, hspells⟩

theorem spells_element (hk : Key.path? key = some path) {index : ℕ}
    (hi : (Label.position index).Valid) (item : String) :
    Spells (key ++ (Segment.ofIndex index).shown, item) (path ++ [.position index], item) := by
  refine ⟨?_, by simp, rfl⟩
  rw [← Key.path?_under_position hk hi]
  exact congrArg Key.path? (Key.under_position_shown key _).symm

theorem valid_of_lt {index : ℕ} {item : String} (hlen : items.length ≤ Label.positionBound)
    (hi : item ∈ items[index]?) : (Label.position index).Valid := by
  obtain ⟨hlt, -⟩ := List.getElem?_eq_some_iff.mp hi
  exact Nat.lt_of_lt_of_le hlt hlen

theorem ofPairs_elements (hk : Key.path? key = some path) (hne : items ≠ [])
    (hlen : items.length ≤ Label.positionBound) :
    ofPairs (elements key items) = .ok (holding path (.ofTexts items)) := by
  refine ofPairs_eq_ok (wellFormed_holding (Node.wellFormed_ofTexts hne) path) ?_ ?_
  · rw [leaves_holding]
    intro pair hp
    obtain ⟨index, item, hi, rfl⟩ := mem_mapIdx_iff.mp hp
    exact ⟨_, Node.mem_leaves_ofTexts.mpr ⟨index, item, hi, rfl⟩,
      spells_element hk (valid_of_lt hlen hi) item⟩
  · rw [leaves_holding]
    intro leaf hl
    obtain ⟨index, item, hi, rfl⟩ := Node.mem_leaves_ofTexts.mp hl
    exact ⟨_, mem_mapIdx_iff.mpr ⟨index, item, hi, rfl⟩, spells_element hk (valid_of_lt hlen hi) item⟩

/-- Elements of an array that were put into a store are so many that their positions are in bounds. -/
theorem length_le_of_ofPairs {store : Store} (h : ofPairs (elements key items) = .ok store) :
    items.length ≤ Label.positionBound := by
  rcases List.eq_nil_or_concat items with rfl | ⟨front, last, rfl⟩
  · exact Nat.zero_le _
  · rw [List.concat_eq_append] at h ⊢
    have hm : (key ++ (Segment.ofIndex front.length).shown, last) ∈ elements key (front ++ [last]) :=
      mem_mapIdx_iff.mpr ⟨front.length, last, by simp, rfl⟩
    obtain ⟨path, hp, -⟩ := path?_of_setAll h _ hm
    have hu : Key.path? (Key.under key (Segment.ofIndex front.length).shown) = some path :=
      (congrArg Key.path? (Key.under_position_shown key _)).trans hp
    obtain ⟨-, -, hlt, -⟩ := Key.of_path?_under_position hu
    rw [List.length_append]
    exact hlt

end Store
end BeanContainer
