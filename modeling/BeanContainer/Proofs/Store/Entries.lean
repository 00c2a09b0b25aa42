/-
# The store as a finite map

Seen from outside, a store is a finite map from paths to texts, no path of which leads on from
another one. A key is read as the path that it spells, so two keys that write a position with and
without leading zeros are the same. Every call of `Store.set` is accepted or refused by the kinds of
the nodes on its path, and changes at most the entry at that path.

Key definitions: `Key.path?`, `Store.call`, `Store.ofCalls`, `Store.WellFormed`, `Store.Puts`.
Key theorems: `Store.set_ok_iff`, `Store.wellFormed_ofCalls`, `Store.mem_leaves_iff`,
`Store.ofCalls_puts`.
-/
import BeanContainer.Proofs.Key
import BeanContainer.Proofs.Store.Node
import Mathlib.Data.List.Induction

namespace BeanContainer

/-- The path that a key spells. A text that is no key spells none, and neither does a key with a
position out of bounds. -/
def Key.path? (key : String) : Option (List Label) :=
  (split key).toOption.bind labels?

example : Key.path? "a[007]" = Key.path? "a[7]" := by cbv

theorem Key.path?_eq_some {key : String} {path : List Label} : path? key = some path ↔
    ∃ segments, split key = .ok segments ∧ labels? segments = some path := by
  unfold path?
  rcases split key with fault | segments
  · exact ⟨nofun, fun ⟨_, h, _⟩ => nomatch h⟩
  · simp [Except.toOption]

theorem Key.path?_eq (key : String) : path? key = (segments? key.toList).bind labels? := by
  unfold path? split
  cases segments? key.toList <;> rfl

/-- A key relative to another one leads on from its path. -/
theorem Key.path?_under (parent sub : String) : path? (under parent sub) =
    (path? parent).bind fun front => (path? sub).map (front ++ ·) := by
  simp only [path?_eq, segments?_under]
  rcases segments? parent.toList with _ | front
  · rfl
  rw [Option.bind_some, Option.bind_some]
  rcases segments? sub.toList with _ | back
  · cases labels? front <;> rfl
  · exact labels?_append front back

theorem Key.path?_ofLabels {path : List Label} (h : ∀ label ∈ path, label.Valid) :
    path? (ofLabels path) = some path := by
  unfold path?
  rw [split_ofLabels h]
  exact labels?_toSegment h

namespace Store

variable {store next : Store} {key text : String} {path : List Label} {node : Node}

/-! ### Calls -/

/-- Puts a text at a key. A call that is refused leaves the store as it was. -/
def call (store : Store) (call : String × String) : Store :=
  (store.set call.1 call.2).toOption.getD store

/-- The store after calls, one after the other. -/
def ofCalls (calls : List (String × String)) : Store :=
  calls.foldl call empty

theorem set_ok_iff : store.set key text = .ok next ↔ ∃ path root, Key.path? key = some path ∧
    path ≠ [] ∧ Node.write text path store.root = .ok root ∧ next = ⟨some root⟩ := by
  unfold set Key.path?
  rcases Key.split key with fault | segments
  · simp [bind, Except.bind, Except.toOption]
  · simp only [bind, Except.bind, Except.toOption, Option.bind_some]
    rcases Key.labels? segments with _ | _ | ⟨label, rest⟩
    · simp
    · simp
    · rcases hw : Node.write text (label :: rest) store.root with conflict | root
      · simp [hw]
      · simp [hw, eq_comm]

theorem call_of_ok (h : store.set key text = .ok next) : store.call (key, text) = next := by
  unfold call
  rw [h]
  rfl

theorem call_of_error {fault : Fault} (h : store.set key text = .error fault) :
    store.call (key, text) = store := by
  unfold call
  rw [h]
  rfl

theorem ofCalls_concat (calls : List (String × String)) (last : String × String) :
    ofCalls (calls ++ [last]) = (ofCalls calls).call last := by
  unfold ofCalls
  rw [List.foldl_append]
  rfl

/-- The nodes of the store are well formed. -/
def WellFormed (store : Store) : Prop := ∀ node ∈ store.root, node.WellFormed

theorem wellFormed_empty : empty.WellFormed := by
  intro node hn
  cases hn

theorem WellFormed.set (h : store.WellFormed) (hx : store.set key text = .ok next) :
    next.WellFormed := by
  obtain ⟨path, root, -, -, hw, rfl⟩ := set_ok_iff.mp hx
  intro node hn
  cases hn
  exact Node.write_wellFormed hw h

theorem wellFormed_ofCalls (calls : List (String × String)) : (ofCalls calls).WellFormed := by
  induction calls using List.reverseRecOn with
  | nil => exact wellFormed_empty
  | append_singleton calls last ih =>
    rw [ofCalls_concat]
    rcases hx : (ofCalls calls).set last.1 last.2 with fault | next
    · exact (call_of_error hx).symm ▸ ih
    · exact (call_of_ok hx).symm ▸ ih.set hx

/-! ### Reading -/

theorem mem_leaves_iff (h : store.WellFormed) :
    (path, text) ∈ store.leaves ↔ store.at? path = some (.value text) := by
  unfold leaves at?
  rcases hr : store.root with _ | root
  · simp
  · rw [Node.mem_leaves (h root hr)]
    simp

theorem node?_eq (store : Store) (key : String) :
    store.node? key = (Key.path? key).bind store.at? := by
  unfold node? Key.path?
  cases Key.split key <;> rfl

theorem get?_eq_some_iff :
    store.get? key = some text ↔ store.node? key = some (.value text) := by
  unfold get?
  rcases store.node? key with _ | node
  · exact ⟨nofun, nofun⟩
  · cases node <;> simp

theorem get?_iff (h : store.WellFormed) : store.get? key = some text ↔
    ∃ path, Key.path? key = some path ∧ (path, text) ∈ store.leaves := by
  rw [get?_eq_some_iff, node?_eq, Option.bind_eq_some_iff]
  simp only [mem_leaves_iff h]

/-- There is a node at a path when there is a text at the path or below it. -/
theorem at?_isSome_iff (h : store.WellFormed) :
    (store.at? path).isSome = true ↔ ∃ leaf ∈ store.leaves, path <+: leaf.1 := by
  constructor
  · intro hs
    obtain ⟨node, hn⟩ := Option.isSome_iff_exists.mp hs
    obtain ⟨root, hr, hn'⟩ := Option.bind_eq_some_iff.mp hn
    obtain ⟨below, t, ht⟩ := ((h root hr).at? hn').leads
    refine ⟨(path ++ below, t), (mem_leaves_iff h).mpr ?_, List.prefix_append _ _⟩
    unfold Store.at?
    rw [hr, Option.bind_some, Node.at?_append, hn', Option.bind_some, ht]
  · rintro ⟨⟨_, t⟩, hl, below, rfl⟩
    have ht := (mem_leaves_iff h).mp hl
    unfold Store.at? at ht ⊢
    obtain ⟨root, hr, ht⟩ := Option.bind_eq_some_iff.mp ht
    rw [Node.at?_append] at ht
    obtain ⟨node, hn, -⟩ := Option.bind_eq_some_iff.mp ht
    rw [hr, Option.bind_some, hn]
    rfl

theorem has_iff (h : store.WellFormed) : store.has key = true ↔
    ∃ path, Key.path? key = some path ∧ ∃ leaf ∈ store.leaves, path <+: leaf.1 := by
  unfold has
  rw [node?_eq]
  rcases Key.path? key with _ | path
  · simp
  · rw [Option.bind_some, at?_isSome_iff h]
    simp

/-! ### The effect of a call -/

/-- What it does to put `text` at `key`, from `store` to `next`. The entries of a store are its
leaves, texts with their paths. -/
structure Puts (key text : String) (store next : Store) : Prop where
  /-- The entries form a map, and no path of an entry leads on from another one. -/
  prefixFree : Node.PrefixFree store.leaves ∧ Node.PrefixFree next.leaves
  /-- A text is accepted at a path that is not empty, when every node above has room for the next
  label and the node at the path, if there is one, is a text, or the text to be put is empty. -/
  accepted : (∃ stored, store.set key text = .ok stored) ↔
    ∃ path, Key.path? key = some path ∧ path ≠ [] ∧
      (∀ front label back, path = front ++ label :: back →
        ∀ node, store.at? front = some node → node.kind = label.parentKind) ∧
      ∀ node, store.at? path = some node → node.kind = .value ∨ text = ""
  /-- An accepted text is the entry at its path, and other entries stay. -/
  entry : ∀ path stored, Key.path? key = some path → store.set key text = .ok stored →
    (∀ node, store.at? path = some node → node.kind = .value) →
    ∀ other t, (other, t) ∈ next.leaves ↔ if other = path then t = text else (other, t) ∈ store.leaves
  /-- The empty text that is accepted at a branch changes nothing. -/
  branch : ∀ path node, Key.path? key = some path → store.at? path = some node →
    node.kind ≠ .value → next = store
  refused : ∀ fault, store.set key text = .error fault → next = store
  get : ∀ other t, next.get? other = some t ↔
    ∃ path, Key.path? other = some path ∧ (path, t) ∈ next.leaves
  has : ∀ other, next.has other = true ↔
    ∃ path, Key.path? other = some path ∧ ∃ entry ∈ next.leaves, path <+: entry.1
  /-- A node that is there stays what it is. -/
  kind : ∀ path node, store.at? path = some node →
    ∃ later, next.at? path = some later ∧ later.kind = node.kind

theorem prefixFree_leaves (h : store.WellFormed) : Node.PrefixFree store.leaves := by
  unfold leaves
  rcases hr : store.root with _ | root
  · exact List.Pairwise.nil
  · exact Node.leaves_prefixFree (h root hr) []

/-- **A store refines a prefix-free finite map**, whatever calls it went through. -/
theorem ofCalls_puts (calls : List (String × String)) (key text : String) :
    Puts key text (ofCalls calls) (ofCalls (calls ++ [(key, text)])) := by
  have h := wellFormed_ofCalls calls
  have h' := wellFormed_ofCalls (calls ++ [(key, text)])
  rw [ofCalls_concat] at h' ⊢
  generalize ofCalls calls = store at *
  refine ⟨⟨prefixFree_leaves h, prefixFree_leaves h'⟩, ?_, ?_, ?_, fun _ => call_of_error,
    fun _ _ => get?_iff h', fun _ => has_iff h', ?_⟩
  · constructor
    · rintro ⟨stored, hx⟩
      obtain ⟨path, root, hp, hne, hw, -⟩ := set_ok_iff.mp hx
      obtain ⟨above, here⟩ := Node.write_ok_iff.mp ⟨root, hw⟩
      exact ⟨path, hp, hne, above, here⟩
    · rintro ⟨path, hp, hne, above, here⟩
      obtain ⟨root, hw⟩ := Node.write_ok_iff.mpr ⟨above, here⟩
      exact ⟨_, set_ok_iff.mpr ⟨path, root, hp, hne, hw, rfl⟩⟩
  · intro path stored hp hx hv other t
    obtain ⟨path', root, hp', -, hw, rfl⟩ := set_ok_iff.mp hx
    rw [hp] at hp'
    cases hp'
    rw [mem_leaves_iff h', mem_leaves_iff h, call_of_ok hx]
    exact Node.at?_write hw hv
  · intro path node hp hn hk
    rcases hx : store.set key text with fault | stored
    · exact call_of_error hx
    · obtain ⟨path', root, hp', -, hw, rfl⟩ := set_ok_iff.mp hx
      rw [hp] at hp'
      cases hp'
      have hsame := Node.write_branch hw h hn hk
      rw [call_of_ok hx, ← hsame]
  · intro path node hn
    rcases hx : store.set key text with fault | stored
    · exact ⟨node, (call_of_error hx).symm ▸ hn, rfl⟩
    · obtain ⟨_, root, -, -, hw, rfl⟩ := set_ok_iff.mp hx
      rw [call_of_ok hx]
      exact Node.kind_write hw hn

end Store
end BeanContainer
