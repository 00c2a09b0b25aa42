/-
# Expansion of templates

A template is expanded against a store: each placeholder gives way to the expanded text that is
stored under its key. A key that comes up while its own text is being expanded is a circular
reference, so expansion ends for every store.

Key definitions:
- `Store.mentions`, the keys that the stored texts name.
- `Store.stored?`, the text at a key, with the faults a placeholder can have.
- `Store.expand`, which carries the chain of keys whose texts are being expanded.
- `Store.resolve`, the text that a template stands for.
Key theorems: `Store.leaf_of_node?`, a text found at a key is a leaf of the store.
-/
import BeanContainer.Store
import BeanContainer.Template

namespace BeanContainer

theorem Children.find?_leaves {label : Label} {child : Node} {children : Children}
    (found : Children.find? label children = some child) {path : List Label}
    {leaf : List Label × String} (inChild : leaf ∈ child.leaves (path ++ [label])) :
    leaf ∈ Node.childLeaves path children := by
  induction children with
  | nil => simp [Children.find?] at found
  | cons entry rest ih =>
    obtain ⟨other, node⟩ := entry
    simp only [Children.find?] at found
    simp only [Node.childLeaves, List.mem_append]
    split at found
    · rename_i same
      cases found
      subst same
      exact .inl inChild
    · exact .inr (ih found)

theorem Node.leaf_of_at? {path : List Label} {node : Node} {text : String}
    (found : node.at? path = some (.value text)) (base : List Label) :
    ∃ place, (place, text) ∈ node.leaves base := by
  induction path generalizing node base with
  | nil =>
    simp only [Node.at?, Option.some.injEq] at found
    subst found
    exact ⟨base, by simp [Node.leaves]⟩
  | cons label rest ih =>
    simp only [Node.at?, Option.bind_eq_bind, Option.bind_eq_some_iff] at found
    obtain ⟨children, branch, child, inside, found⟩ := found
    obtain ⟨place, leaf⟩ := ih found (base ++ [label])
    have reached := Children.find?_leaves inside leaf
    refine ⟨place, ?_⟩
    cases node <;> cases label <;> simp_all [Node.branch?, Node.leaves]

namespace Store

/-- The keys that the stored texts name. -/
def mentions (store : Store) : List String :=
  store.leaves.flatMap fun leaf => (Template.ofText leaf.2).keys

/-- A text found at a key is a leaf of the store. -/
theorem leaf_of_node? {store : Store} {key text : String}
    (found : store.node? key = some (.value text)) : ∃ place, (place, text) ∈ store.leaves := by
  unfold node? at found
  split at found
  · obtain ⟨path, -, found⟩ := Option.bind_eq_some_iff.1 found
    obtain ⟨root, isRoot, found⟩ := Option.bind_eq_some_iff.1 found
    obtain ⟨place, leaf⟩ := Node.leaf_of_at? found []
    exact ⟨place, by simp [leaves, isRoot, leaf]⟩
  · simp at found

theorem mentions_of_node? {store : Store} {key text : String}
    (found : store.node? key = some (.value text)) :
    ∀ name ∈ (Template.ofText text).keys, name ∈ store.mentions := by
  intro name named
  obtain ⟨place, leaf⟩ := leaf_of_node? found
  exact List.mem_flatMap.2 ⟨_, leaf, named⟩

/-- The text stored at the key of a placeholder, or none when there is nothing at the key. The
placeholder stands in the text `whole`, and `chain` holds the keys whose texts are being
expanded. -/
def stored? (store : Store) (chain : List String) (whole key : String) :
    Except Fault (Option String) :=
  if key.isEmpty then .error (.invalidTemplate whole)
  else match Key.split key with
    | .error fault => .error fault
    | .ok _ =>
      if key ∈ chain then .error (.circularReference (chain ++ [key]))
      else match store.node? key with
        | none => .ok none
        | some (.value text) => .ok (some text)
        | some node => .error (.binding key (.notText node.kind))

theorem stored?_some {store : Store} {chain : List String} {whole key text : String}
    (found : store.stored? chain whole key = .ok (some text)) :
    key ∉ chain ∧ store.node? key = some (.value text) := by
  unfold stored? at found
  split at found
  · simp at found
  · split at found
    · simp at found
    · split at found
      · simp at found
      · rename_i fresh
        refine ⟨fresh, ?_⟩
        split at found <;> simp_all

/-- The number of keys that the chain may still grow by. -/
def pending (store : Store) (chain : List String) : Nat :=
  (store.mentions.filter (· ∉ chain)).length + if chain.isEmpty then 1 else 0

theorem pending_lt {store : Store} {chain : List String} {key : String} (fresh : key ∉ chain)
    (known : chain ≠ [] → key ∈ store.mentions) :
    store.pending (chain ++ [key]) < store.pending chain := by
  have less : store.mentions.filter (· ∉ chain ++ [key]) =
      (store.mentions.filter (· ∉ chain)).filter (· ≠ key) := by
    simp [List.filter_filter, Bool.and_comm]
  have kept := List.length_filter_le (· ≠ key) (store.mentions.filter (· ∉ chain))
  have lost : chain ≠ [] → ((store.mentions.filter (· ∉ chain)).filter (· ≠ key)).length <
      (store.mentions.filter (· ∉ chain)).length := fun started =>
    List.length_filter_lt_length_iff_exists.2 ⟨key, by simp [fresh, known started], by simp⟩
  unfold pending
  rw [less]
  by_cases first : chain = []
  · exact Nat.add_lt_add_of_le_of_lt kept (by simp [first])
  · exact Nat.add_lt_add_of_lt_of_le (lost first) (by simp)

/-- The text that a template stands for. It is part of the text `whole`; `chain` holds the keys
whose texts are being expanded, and once it is not empty the template comes from the store. -/
def expand (store : Store) (chain : List String) (whole : String) (template : Template)
    (known : chain ≠ [] → ∀ key ∈ template.keys, key ∈ store.mentions) : Except Fault String :=
  match template with
  | .done => .ok ""
  | .unclosed => .error (.invalidTemplate whole)
  | .literal text rest => do
    let behind ← store.expand chain whole rest known
    return text ++ behind
  | .required key rest =>
    match found : store.stored? chain whole key with
    | .error fault => .error fault
    | .ok none => .error (.missingProperty key)
    | .ok (some text) => do
      have := pending_lt (stored?_some found).1 fun started => known started key (by
        simp [Template.keys])
      let value ← store.expand (chain ++ [key]) text (Template.ofText text)
        fun _ => mentions_of_node? (stored?_some found).2
      let behind ← store.expand chain whole rest fun started name named =>
        known started name (by simp [Template.keys, named])
      return value ++ behind
  | .defaulted key text default rest =>
    match found : store.stored? chain whole key with
    | .error fault => .error fault
    | .ok none => do
      let value ← store.expand chain text default fun started name named =>
        known started name (by simp [Template.keys, named])
      let behind ← store.expand chain whole rest fun started name named =>
        known started name (by simp [Template.keys, named])
      return value ++ behind
    | .ok (some text) => do
      have := pending_lt (stored?_some found).1 fun started => known started key (by
        simp [Template.keys])
      let value ← store.expand (chain ++ [key]) text (Template.ofText text)
        fun _ => mentions_of_node? (stored?_some found).2
      let behind ← store.expand chain whole rest fun started name named =>
        known started name (by simp [Template.keys, named])
      return value ++ behind
termination_by (store.pending chain, template)

/-- The text that `text` stands for once every placeholder in it is expanded. -/
def resolve (store : Store) (text : String) : Except Fault String :=
  store.expand [] text (Template.ofText text) (fun started => absurd rfl started)

end Store
end BeanContainer
