/-
# Writing and reading nodes

The children of a branch stand in label order, each label once, and every branch leads to a text;
writes keep it so. A write is seen at its own path alone, and it stops where the kinds of the nodes
on its way don't fit.

Key definitions: `Label.parentKind`, `Children.Proper`, `Node.WellFormed`, `Node.Admits`.
Key theorems: `Children.Sorted.find?_iff`, `Node.write_wellFormed`, `Node.write_ok_iff`,
`Node.at?_write`, `Node.write_branch`, `Node.kind_write`, `Node.mem_leaves`,
`Node.leaves_prefixFree`.
-/
import BeanContainer.Store
import Mathlib.Data.List.Pairwise

namespace BeanContainer

/-! ### Labels -/

namespace Label

/-- The kind of the nodes that have children under the label. -/
def parentKind : Label → NodeKind
  | name _ => .map
  | position _ => .array

theorem lt_irrefl (a : Label) : a.lt a = false := by
  cases a <;> simp [lt]

theorem lt_trans {a b c : Label} (h : a.lt b = true) (h' : b.lt c = true) : a.lt c = true := by
  cases a <;> cases b <;> cases c <;> simp only [lt, decide_eq_true_eq, Bool.false_eq_true] at *
  · exact String.lt_trans h h'
  · omega

theorem lt_of_not_lt {a b : Label} (h : a.lt b = false) (hne : b ≠ a) : b.lt a = true := by
  cases a <;> cases b <;> simp only [lt, decide_eq_false_iff_not, decide_eq_true_eq, ne_eq,
    name.injEq, position.injEq, Bool.true_eq_false] at *
  · by_contra hn
    exact hne (String.le_antisymm (String.not_lt.mp h) (String.not_lt.mp hn))
  · omega

end Label

/-! ### Children -/

namespace Children

variable {label other : Label} {node : Node} {children : Children}

@[simp] theorem find?_put_self (label : Label) (node : Node) (children : Children) :
    find? label (put label node children) = some node := by
  induction children with
  | nil => simp [put, find?]
  | cons entry rest ih =>
    obtain ⟨first, child⟩ := entry
    unfold put
    split
    · simp [find?]
    · next hne =>
      split
      · simp [find?]
      · simpa [find?, hne] using ih

theorem find?_put_ne (h : other ≠ label) (node : Node) (children : Children) :
    find? other (put label node children) = find? other children := by
  induction children with
  | nil => simp [put, find?, h.symm]
  | cons entry rest ih =>
    obtain ⟨first, child⟩ := entry
    unfold put
    split
    · next he => simp [find?, he, h.symm]
    · split
      · simp [find?, h.symm]
      · simp [find?, ih]

theorem find?_mem (h : find? label children = some node) : (label, node) ∈ children := by
  induction children with
  | nil => cases h
  | cons entry rest ih =>
    obtain ⟨first, child⟩ := entry
    unfold find? at h
    split at h
    · next he =>
      cases h
      exact he ▸ List.mem_cons_self
    · exact List.mem_cons_of_mem _ (ih h)

theorem mem_put {entry : Label × Node} (h : entry ∈ put label node children) :
    entry = (label, node) ∨ entry ∈ children := by
  induction children with
  | nil => exact .inl (List.mem_singleton.mp h)
  | cons first rest ih =>
    obtain ⟨other, child⟩ := first
    unfold put at h
    split at h
    · exact (List.mem_cons.mp h).imp_right (List.mem_cons_of_mem _)
    · split at h
      · exact List.mem_cons.mp h
      · rcases List.mem_cons.mp h with rfl | h
        · exact .inr List.mem_cons_self
        · exact (ih h).imp_right (List.mem_cons_of_mem _)

theorem put_ne_nil (label : Label) (node : Node) (children : Children) :
    put label node children ≠ [] := by
  cases children with
  | nil => simp [put]
  | cons entry rest =>
    unfold put
    split
    · exact List.cons_ne_nil _ _
    · split <;> exact List.cons_ne_nil _ _

/-- Children in label order, each label once. -/
def Sorted (children : Children) : Prop :=
  children.Pairwise fun a b => a.1.lt b.1 = true

theorem Sorted.put (h : children.Sorted) (label : Label) (node : Node) :
    (put label node children).Sorted := by
  induction children with
  | nil => exact List.pairwise_singleton _ _
  | cons entry rest ih =>
    obtain ⟨first, child⟩ := entry
    obtain ⟨hfirst, hrest⟩ := List.pairwise_cons.mp h
    unfold Children.put
    split
    · next he => exact List.pairwise_cons.mpr ⟨fun b hb => he ▸ hfirst b hb, hrest⟩
    · next hne =>
      split
      · next hlt =>
        refine List.pairwise_cons.mpr ⟨fun b hb => ?_, h⟩
        rcases List.mem_cons.mp hb with rfl | hb
        · exact hlt
        · exact Label.lt_trans hlt (hfirst b hb)
      · next hlt =>
        refine List.pairwise_cons.mpr ⟨fun b hb => ?_, ih hrest⟩
        rcases mem_put hb with rfl | hb
        · exact Label.lt_of_not_lt (Bool.eq_false_iff.mpr hlt) hne
        · exact hfirst b hb

theorem Sorted.find?_iff (h : children.Sorted) :
    find? label children = some node ↔ (label, node) ∈ children := by
  refine ⟨find?_mem, fun hm => ?_⟩
  induction children with
  | nil => cases hm
  | cons entry rest ih =>
    obtain ⟨first, child⟩ := entry
    obtain ⟨hfirst, hrest⟩ := List.pairwise_cons.mp h
    unfold find?
    rcases List.mem_cons.mp hm with he | hm
    · cases he
      exact if_pos rfl
    · have hne : first ≠ label := fun he => by
        have hlt := hfirst _ hm
        rw [he, Label.lt_irrefl] at hlt
        cases hlt
      rw [if_neg hne]
      exact ih hrest hm

/-- Putting a child where it is changes nothing. -/
theorem Sorted.put_self (h : children.Sorted) (hf : find? label children = some node) :
    Children.put label node children = children := by
  induction children with
  | nil => cases hf
  | cons entry rest ih =>
    obtain ⟨first, child⟩ := entry
    obtain ⟨hfirst, hrest⟩ := List.pairwise_cons.mp h
    unfold find? at hf
    unfold Children.put
    split at hf
    · next he =>
      cases hf
      rw [if_pos he, he]
    · next hne =>
      have hlt := hfirst _ (find?_mem hf)
      have hn : label.lt first ≠ true := fun hl => by
        have := Label.lt_trans hlt hl
        rw [Label.lt_irrefl] at this
        cases this
      rw [if_neg hne, if_neg hn, ih hrest hf]

/-- The children of a branch of this kind: at least one, in label order, under labels that such a
branch has room for. -/
structure Proper (kind : NodeKind) (children : Children) : Prop where
  nonempty : children ≠ []
  sorted : children.Sorted
  labels : ∀ entry ∈ children, entry.1.parentKind = kind

theorem Proper.put {kind : NodeKind} (h : children.Sorted)
    (hl : ∀ entry ∈ children, entry.1.parentKind = kind) (hk : label.parentKind = kind)
    (node : Node) : Proper kind (Children.put label node children) where
  nonempty := put_ne_nil label node children
  sorted := h.put label node
  labels entry he := by
    rcases mem_put he with rfl | he
    · exact hk
    · exact hl entry he

end Children

/-! ### Nodes -/

namespace Node

variable {label : Label} {children : Children} {path : List Label} {text : String} {node next : Node}
  {start : Option Node}

@[simp] theorem kind_ofChildren (label : Label) (children : Children) :
    (ofChildren label children).kind = label.parentKind := by
  cases label <;> rfl

theorem branch?_isSome_iff : (node.branch? label).isSome = true ↔ node.kind = label.parentKind := by
  cases node <;> cases label <;> simp [branch?, kind, Label.parentKind]

theorem ofChildren_of_branch? (h : node.branch? label = some children) :
    node = ofChildren label children := by
  cases node <;> cases label <;> simp_all [branch?, ofChildren]

theorem branch?_ofChildren {other : Label} (h : other.parentKind = label.parentKind) :
    (ofChildren label children).branch? other = some children := by
  cases label <;> cases other <;> simp_all [branch?, ofChildren, Label.parentKind]

theorem branch?_ofChildren_ne {other : Label} (h : other.parentKind ≠ label.parentKind) :
    (ofChildren label children).branch? other = none := by
  cases label <;> cases other <;> simp_all [branch?, ofChildren, Label.parentKind]

/-- Every branch in the node has proper children. -/
inductive WellFormed : Node → Prop
  | value (text : String) : WellFormed (value text)
  | map {children : Children} : children.Proper .map →
      (∀ entry ∈ children, WellFormed entry.2) → WellFormed (map children)
  | array {children : Children} : children.Proper .array →
      (∀ entry ∈ children, WellFormed entry.2) → WellFormed (array children)

theorem wellFormed_ofChildren (h : children.Proper label.parentKind)
    (hc : ∀ entry ∈ children, WellFormed entry.2) : (ofChildren label children).WellFormed := by
  cases label with
  | name text => exact .map h hc
  | position index => exact .array h hc

theorem WellFormed.branch (h : node.WellFormed) (hb : node.branch? label = some children) :
    children.Proper label.parentKind ∧ ∀ entry ∈ children, WellFormed entry.2 := by
  cases h with
  | value text => cases label <;> cases hb
  | map hp hc | array hp hc =>
    cases label <;> cases hb
    exact ⟨hp, hc⟩

theorem single_wellFormed (text : String) (path : List Label) : (single text path).WellFormed := by
  induction path with
  | nil => exact .value text
  | cons label rest ih =>
    refine wellFormed_ofChildren (Children.Proper.put List.Pairwise.nil (by simp) rfl _) ?_
    simpa using ih

/-- A write keeps nodes well formed. -/
theorem write_wellFormed (h : write text path start = .ok next)
    (hs : ∀ node ∈ start, node.WellFormed) : next.WellFormed := by
  fun_induction write text path start generalizing next with
  | case1 path =>
    cases h
    exact single_wellFormed text path
  | case2 => cases h; exact .value text
  | case3 node =>
    cases h
    exact hs _ rfl
  | case4 => cases h
  | case5 => cases h
  | case6 label rest node children hb child hw ih =>
    cases h
    obtain ⟨hp, hc⟩ := (hs node rfl).branch hb
    have hchild := ih hw fun node hn => hc _ (Children.find?_mem hn)
    refine wellFormed_ofChildren (.put hp.sorted hp.labels rfl _) fun entry he => ?_
    rcases Children.mem_put he with rfl | he
    · exact hchild
    · exact hc entry he
  | case7 => cases h

/-! ### Reading -/

theorem at?_cons (label : Label) (rest : List Label) (node : Node) :
    node.at? (label :: rest) =
      (node.branch? label).bind fun children => (Children.find? label children).bind (at? rest) :=
  rfl

theorem at?_cons_of_branch? (hb : node.branch? label = some children) (rest : List Label) :
    node.at? (label :: rest) = (Children.find? label children).bind (at? rest) := by
  rw [at?_cons, hb, Option.bind_some]

theorem at?_append (front back : List Label) (node : Node) :
    node.at? (front ++ back) = (node.at? front).bind (at? back) := by
  induction front generalizing node with
  | nil => rfl
  | cons label rest ih =>
    rw [List.cons_append, at?_cons, at?_cons, Option.bind_assoc]
    refine Option.bind_congr fun children _ => ?_
    rw [Option.bind_assoc]
    exact Option.bind_congr fun child _ => ih child

theorem at?_value (text : String) (path : List Label) :
    (value text).at? path = if path = [] then some (value text) else none := by
  cases path with
  | nil => rfl
  | cons label rest => cases label <;> rfl

theorem at?_single_iff {other : List Label} {t : String} :
    (single text path).at? other = some (value t) ↔ other = path ∧ t = text := by
  induction path generalizing other with
  | nil => simp [single, at?_value, eq_comm]
  | cons label rest ih =>
    unfold single
    cases other with
    | nil => cases label <;> simp [at?, ofChildren]
    | cons first more =>
      by_cases hk : first.parentKind = label.parentKind
      · rw [at?_cons_of_branch? (branch?_ofChildren hk)]
        by_cases he : first = label
        · subst he
          simp [Children.find?, ih]
        · simp [Children.find?, he, Ne.symm he]
      · rw [at?_cons, branch?_ofChildren_ne hk]
        have he : first ≠ label := fun he => hk (he ▸ rfl)
        simp [he]

/-! ### What a write needs and does -/

/-- Whether a text may be put at a path: the nodes on the way have room for what comes next, and at
the path itself stands no branch, unless the text is empty. -/
structure Admits (start : Option Node) (path : List Label) (text : String) : Prop where
  above : ∀ front label back, path = front ++ label :: back →
    ∀ node ∈ start.bind (at? front), node.kind = label.parentKind
  here : ∀ node ∈ start.bind (at? path), node.kind = .value ∨ text = ""

theorem admits_cons (hb : node.branch? label = some children) :
    Admits (some node) (label :: path) text ↔ Admits (Children.find? label children) path text := by
  have hat : ∀ rest, (some node).bind (at? (label :: rest)) =
      (Children.find? label children).bind (at? rest) := at?_cons_of_branch? hb
  constructor
  · rintro ⟨above, here⟩
    refine ⟨fun front other back he child hc => ?_, ?_⟩
    · refine above (label :: front) other back (by rw [he, List.cons_append]) child ?_
      rw [hat]
      exact hc
    · rw [← hat]
      exact here
  · rintro ⟨above, here⟩
    refine ⟨fun front other back he child hc => ?_, ?_⟩
    · cases front with
      | nil =>
        cases he
        cases hc
        exact branch?_isSome_iff.mp (by rw [hb]; rfl)
      | cons first more =>
        cases he
        rw [hat] at hc
        exact above more other back rfl child hc
    · rw [hat]
      exact here

/-- **Which writes are accepted.** -/
theorem write_ok_iff : (∃ next, write text path start = .ok next) ↔ Admits start path text := by
  fun_induction write text path start with
  | case1 path => exact ⟨fun _ => ⟨by simp, by simp⟩, fun _ => ⟨_, rfl⟩⟩
  | case2 =>
    refine ⟨fun _ => ⟨by simp, fun node hn => ?_⟩, fun _ => ⟨_, rfl⟩⟩
    cases hn
    exact .inl rfl
  | case3 node _ he =>
    refine ⟨fun _ => ⟨by simp, fun _ _ => .inr ?_⟩, fun _ => ⟨_, rfl⟩⟩
    exact String.isEmpty_iff.mp he
  | case4 node hv he =>
    refine ⟨nofun, fun ⟨_, here⟩ => ?_⟩
    rcases here node rfl with hk | ht
    · cases node with
      | value t => exact absurd rfl (hv t)
      | _ => cases hk
    · exact absurd (String.isEmpty_iff.mpr ht) he
  | case5 label rest node hb =>
    refine ⟨nofun, fun ⟨above, _⟩ => ?_⟩
    have hk := branch?_isSome_iff.mpr (above [] label rest rfl node rfl)
    rw [hb] at hk
    cases hk
  | case6 label rest node children hb child hw ih =>
    rw [admits_cons hb, ← ih]
    exact ⟨fun _ => ⟨child, hw⟩, fun _ => ⟨_, rfl⟩⟩
  | case7 label rest node children hb conflict hw ih =>
    rw [admits_cons hb, ← ih]
    exact ⟨nofun, fun ⟨_, h⟩ => by rw [hw] at h; cases h⟩

/-- A write is seen at its own path alone. -/
theorem at?_write (h : write text path start = .ok next)
    (hv : ∀ node ∈ start.bind (at? path), node.kind = .value) {other : List Label} {t : String} :
    next.at? other = some (value t) ↔
      if other = path then t = text else start.bind (at? other) = some (value t) := by
  fun_induction write text path start generalizing next other with
  | case1 path =>
    cases h
    rw [at?_single_iff]
    by_cases he : other = path <;> simp [he]
  | case2 =>
    cases h
    simp only [Option.bind_some, at?_value]
    by_cases he : other = [] <;> simp [he, eq_comm]
  | case3 node hn he =>
    have hk := hv node rfl
    cases node with
    | value s => exact absurd rfl (hn s)
    | _ => cases hk
  | case4 => cases h
  | case5 => cases h
  | case6 label rest node children hb child hw ih =>
    cases h
    rw [Option.bind_some, at?_cons_of_branch? hb] at hv
    rw [Option.bind_some]
    have hnode := ofChildren_of_branch? hb
    cases other with
    | nil =>
      rw [hnode]
      cases label <;> simp [at?, ofChildren]
    | cons first more =>
      by_cases hk : first.parentKind = label.parentKind
      · have hold : node.branch? first = some children := hnode ▸ branch?_ofChildren hk
        rw [at?_cons_of_branch? (branch?_ofChildren hk), at?_cons_of_branch? hold]
        by_cases he : first = label
        · subst he
          rw [Children.find?_put_self, Option.bind_some, ih hw hv]
          simp
        · rw [Children.find?_put_ne he]
          simp [he]
      · have he : first ≠ label := fun he => hk (he ▸ rfl)
        rw [hnode, at?_cons, at?_cons, branch?_ofChildren_ne hk, branch?_ofChildren_ne hk]
        simp [he]
  | case7 => cases h

/-- A write on a branch changes nothing. -/
theorem write_branch (h : write text path start = .ok next)
    (hs : ∀ node ∈ start, node.WellFormed) (hb : start.bind (at? path) = some node)
    (hk : node.kind ≠ .value) : start = some next := by
  fun_induction write text path start generalizing next with
  | case1 path => cases hb
  | case2 =>
    cases hb
    exact absurd rfl hk
  | case3 => cases h; rfl
  | case4 => cases h
  | case5 => cases h
  | case6 label rest node' children hbr child hw ih =>
    cases h
    rw [Option.bind_some, at?_cons_of_branch? hbr] at hb
    obtain ⟨hp, hc⟩ := (hs node' rfl).branch hbr
    have hsame := ih hw (fun n hn => hc _ (Children.find?_mem hn)) hb
    rw [hp.sorted.put_self hsame, ← ofChildren_of_branch? hbr]
  | case7 => cases h

/-- Nodes that are there stay what they are. -/
theorem kind_write (h : write text path start = .ok next) {other : List Label}
    (hn : start.bind (at? other) = some node) :
    ∃ later, next.at? other = some later ∧ later.kind = node.kind := by
  fun_induction write text path start generalizing next other with
  | case1 path => cases hn
  | case2 =>
    cases h
    rw [Option.bind_some, at?_value] at hn
    rw [at?_value]
    split at hn
    · next he =>
      cases hn
      exact ⟨_, if_pos he, rfl⟩
    · cases hn
  | case3 => cases h; exact ⟨node, hn, rfl⟩
  | case4 => cases h
  | case5 => cases h
  | case6 label rest first children hb child hw ih =>
    cases h
    have hfirst := ofChildren_of_branch? hb
    rw [Option.bind_some, hfirst] at hn
    cases other with
    | nil =>
      cases hn
      exact ⟨_, rfl, by rw [kind_ofChildren, kind_ofChildren]⟩
    | cons other more =>
      by_cases hk : other.parentKind = label.parentKind
      · rw [at?_cons_of_branch? (branch?_ofChildren hk)] at hn ⊢
        by_cases he : other = label
        · subst he
          rw [Children.find?_put_self]
          exact ih hw hn
        · rw [Children.find?_put_ne he]
          exact ⟨node, hn, rfl⟩
      · rw [at?_cons, branch?_ofChildren_ne hk] at hn
        cases hn
  | case7 => cases h

/-! ### Leaves -/

/-- Well formed nodes are texts, or branches with proper children. -/
@[elab_as_elim]
theorem WellFormed.induct {motive : (node : Node) → node.WellFormed → Prop}
    (value : ∀ text, motive (.value text) (.value text))
    (branch : ∀ (label : Label) (children : Children) (hp : children.Proper label.parentKind)
      (hc : ∀ entry ∈ children, WellFormed entry.2),
      (∀ (entry : Label × Node) (he : entry ∈ children), motive entry.2 (hc entry he)) →
        motive (ofChildren label children) (wellFormed_ofChildren hp hc))
    {node : Node} (h : node.WellFormed) : motive node h := by
  induction h with
  | value text => exact value text
  | map hp hc ih => exact branch (.name "") _ hp hc ih
  | array hp hc ih => exact branch (.position 0) _ hp hc ih

theorem WellFormed.at? (h : node.WellFormed) {path : List Label}
    (hn : node.at? path = some next) : next.WellFormed := by
  induction path generalizing node with
  | nil =>
    cases hn
    exact h
  | cons label rest ih =>
    rw [at?_cons] at hn
    obtain ⟨children, hb, hn⟩ := Option.bind_eq_some_iff.mp hn
    obtain ⟨child, hf, hn⟩ := Option.bind_eq_some_iff.mp hn
    exact ih ((h.branch hb).2 _ (Children.find?_mem hf)) hn

/-- Every node leads to a text. -/
theorem WellFormed.leads (h : node.WellFormed) :
    ∃ path t, node.at? path = some (.value t) := by
  induction h using WellFormed.induct with
  | value text => exact ⟨[], text, rfl⟩
  | branch label children hp _ ih =>
    obtain ⟨⟨first, child⟩, hm⟩ := List.exists_mem_of_ne_nil children hp.nonempty
    obtain ⟨path, t, ht⟩ := ih _ hm
    refine ⟨first :: path, t, ?_⟩
    rw [at?_cons_of_branch? (branch?_ofChildren (hp.labels _ hm)), hp.sorted.find?_iff.mpr hm]
    exact ht

theorem childLeaves_eq (base : List Label) (children : Children) :
    childLeaves base children = children.flatMap fun entry => entry.2.leaves (base ++ [entry.1]) := by
  induction children with
  | nil => rfl
  | cons entry rest ih =>
    obtain ⟨label, child⟩ := entry
    rw [childLeaves, ih, List.flatMap_cons]

theorem leaves_ofChildren (base : List Label) (label : Label) (children : Children) :
    (ofChildren label children).leaves base =
      children.flatMap fun entry => entry.2.leaves (base ++ [entry.1]) := by
  rw [← childLeaves_eq]
  cases label <;> rfl

/-- The leaves of a node are the texts that it leads to. -/
theorem mem_leaves (h : node.WellFormed) (base : List Label) {leaf : List Label × String} :
    leaf ∈ node.leaves base ↔
      ∃ path, leaf.1 = base ++ path ∧ node.at? path = some (value leaf.2) := by
  induction h using WellFormed.induct generalizing base with
  | value text =>
    obtain ⟨place, t⟩ := leaf
    simp only [leaves, List.mem_singleton, Prod.mk.injEq, at?_value]
    constructor
    · rintro ⟨rfl, rfl⟩
      exact ⟨[], by simp, rfl⟩
    · rintro ⟨path, rfl, ht⟩
      split at ht
      · next he =>
        cases ht
        simp [he]
      · cases ht
  | branch label children hp _ ih =>
    rw [leaves_ofChildren, List.mem_flatMap]
    constructor
    · rintro ⟨⟨first, child⟩, hm, hl⟩
      obtain ⟨path, hpath, ht⟩ := (ih _ hm _).mp hl
      refine ⟨first :: path, by rw [hpath, List.append_assoc, List.singleton_append], ?_⟩
      rw [at?_cons_of_branch? (branch?_ofChildren (hp.labels _ hm)), hp.sorted.find?_iff.mpr hm]
      exact ht
    · rintro ⟨path, hpath, ht⟩
      cases path with
      | nil => cases label <;> cases ht
      | cons first rest =>
        rw [at?_cons] at ht
        obtain ⟨found, hb, hbelow⟩ := Option.bind_eq_some_iff.mp ht
        have hk : first.parentKind = label.parentKind := by
          by_contra hk
          rw [branch?_ofChildren_ne hk] at hb
          cases hb
        rw [branch?_ofChildren hk] at hb
        cases hb
        obtain ⟨child, hf, hleaf⟩ := Option.bind_eq_some_iff.mp hbelow
        have hm := Children.find?_mem hf
        refine ⟨_, hm, (ih _ hm _).mpr ⟨rest, ?_, hleaf⟩⟩
        rw [hpath, List.append_assoc, List.singleton_append]

/-- No path of a leaf leads on from the path of another one. -/
def PrefixFree (leaves : List (List Label × String)) : Prop :=
  leaves.Pairwise fun a b => ¬ a.1 <+: b.1 ∧ ¬ b.1 <+: a.1

theorem leaves_prefixFree (h : node.WellFormed) (base : List Label) :
    PrefixFree (node.leaves base) := by
  induction h using WellFormed.induct generalizing base with
  | value text => exact List.pairwise_singleton _ _
  | branch label children hp hc ih =>
    rw [leaves_ofChildren]
    refine List.pairwise_flatMap.mpr ⟨fun entry he => ih entry he _, hp.sorted.imp_of_mem ?_⟩
    rintro ⟨first, child⟩ ⟨second, child'⟩ hm hm' hlt a ha b hb
    obtain ⟨p, hp, -⟩ := (mem_leaves (hc _ hm) _).mp ha
    obtain ⟨q, hq, -⟩ := (mem_leaves (hc _ hm') _).mp hb
    have hne : first ≠ second := fun he => by
      rw [he, Label.lt_irrefl] at hlt
      cases hlt
    rw [hp, hq, List.append_assoc, List.append_assoc, List.prefix_append_right_inj,
      List.prefix_append_right_inj]
    simp [List.cons_prefix_cons, hne, hne.symm]

end Node
end BeanContainer
