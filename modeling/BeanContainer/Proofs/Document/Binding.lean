/-
# Documents that come back

The data of a document, in a type of its shape, are what the type is bound to when the pairs of the
document are stored: the way through keys, texts and the tree of the store loses nothing.

Key definitions: `Schema.data?`, `Document.Plain`, `Schema.Binds`.
Key theorems: `Schema.binds`, `Document.bind_flatten`.
-/
import BeanContainer.Proofs.Binding.Scalar
import BeanContainer.Proofs.Document.Flattening
import BeanContainer.Proofs.Number.Reading
import BeanContainer.Proofs.Template

namespace BeanContainer

/-! ### Data of a document -/

namespace Schema

mutual

/-- The data of a document in a type of its shape: a record has a field with the tag of a member for
each of the members that it takes. -/
def data? : Schema → Document → Option Data
  | scalar .text, .text s => some (.text s)
  | scalar .bool, .bool b => some (.bool b)
  | scalar (.int .i64), .int n => some (.int n)
  | list item, .array items => do
    return .list (← items.mapM fun document => item.data? document)
  | dict item, .object members => do
    return .dict (← members.mapM fun (name, document) => do return (name, ← item.data? document))
  | record fields, .object members => do return .record (← fieldsData? fields members)
  | _, _ => none

/-- The data of the members that fields take. -/
def fieldsData? : List (Field × Schema) → Members → Option (List (String × Data))
  | [], _ => some []
  | (field, schema) :: rest, members => do
    let (_, document) ← members.find? fun member =>
      field.tag = some (Target.tagOf member.1) && field.validator.isNone
    let data ← schema.data? document
    return (field.name, data) :: (← fieldsData? rest members)

end

end Schema

namespace Document

/-- A document of texts without placeholders, truth values and integers of 64 bits, in arrays and
objects that are not empty; the members of an object have words for names and stand in the order of
the names. -/
inductive Plain : Document → Prop
  | text {s : String} : Template.Plain s.toList → Plain (text s)
  | bool {b : Bool} : Plain (bool b)
  | int {n : Int} : IntWidth.i64.least ≤ n → n ≤ IntWidth.i64.greatest → Plain (int n)
  | array {items : List Document} : items ≠ [] → items.length ≤ Label.positionBound →
      (∀ item ∈ items, Plain item) → Plain (array items)
  | object {members : Members} : members ≠ [] → (members.Pairwise fun a b => a.1 < b.1) →
      (∀ member ∈ members, isWord member.1 = true) →
      (∀ member ∈ members, Plain member.2) → Plain (object members)

variable {document : Document} {items : List Document} {members : Members}

theorem name_valid {name : String} (h : isWord name = true) : (Label.name name).Valid := by
  obtain ⟨hne, hchars⟩ := isWord_iff.mp h
  refine ⟨hne, fun c hc => ?_⟩
  have hw := hchars c hc
  simp only [isWordChar, Bool.and_eq_true] at hw
  exact hw.1.1.1

theorem Plain.named (h : document.Plain) : document.Named := by
  induction h with
  | text | bool | int => exact .scalar rfl
  | array _ hlen _ ih => exact .array hlen ih
  | object _ hsorted hnames _ ih =>
    exact .object hsorted (fun member hm => name_valid (hnames member hm)) ih

/-- Something is stored for every plain document. -/
theorem Plain.exists_node (h : document.Plain) : ∃ node, document.node? = some node := by
  induction h with
  | text | bool | int => exact ⟨_, rfl⟩
  | @array items hne _ _ ih =>
    obtain ⟨first, rest, rfl⟩ := List.exists_cons_of_ne_nil hne
    obtain ⟨node, hn⟩ := ih first List.mem_cons_self
    refine ⟨.array ((.position 0, node) :: itemNodes 1 rest), ?_⟩
    rw [node?, itemNodes, hn]
    rfl
  | @object members hne _ _ _ ih =>
    obtain ⟨first, rest, rfl⟩ := List.exists_cons_of_ne_nil hne
    obtain ⟨node, hn⟩ := ih first List.mem_cons_self
    refine ⟨.map ((.name first.1, node) :: memberNodes rest), ?_⟩
    rw [node?, memberNodes, hn]
    rfl

end Document

/-! ### Scalars -/

theorem trim_ofBool (b : Bool) : Text.trim (Text.ofBool b) = Text.ofBool b := by
  cases b <;> cbv

theorem isBlank_of_isDigit {c : Char} (h : c.isDigit = true) : Text.isBlank c = false := by
  have hw := isWordChar_of_isAlphanum (c := c) (.inl (by rw [Char.isAlphanum, h, Bool.or_true]))
  simp only [isWordChar, Bool.and_eq_true, Bool.not_eq_true'] at hw
  exact hw.1.1.2

/-- The text of an integer has digits only, and perhaps the sign `-`. -/
theorem of_mem_repr {n : Int} {c : Char} (h : c ∈ n.repr.toList) : c.isDigit = true ∨ c = '-' := by
  cases n with
  | ofNat m =>
    rw [show (Int.repr (.ofNat m)).toList = Nat.toDigits 10 m from Nat.toList_repr] at h
    exact .inl (toDigits_isDigit m c h)
  | negSucc m =>
    rw [show (Int.repr (.negSucc m)).toList = ("-" ++ Nat.repr (m + 1)).toList from rfl,
      String.toList_append, Nat.toList_repr] at h
    rcases List.mem_append.mp h with h | h
    · exact .inr (List.mem_singleton.mp h)
    · exact .inl (toDigits_isDigit (m + 1) c h)

theorem trim_repr (n : Int) : Text.trim n.repr = n.repr := by
  unfold Text.trim
  rw [Text.trimChars_eq_self_of_forall fun c hc => ?_, String.ofList_toList]
  rcases of_mem_repr hc with hd | rfl
  · exact isBlank_of_isDigit hd
  · decide

namespace Schema

variable {type : ScalarType} {document : Document} {data : Data}

theorem data?_scalar (h : (scalar type).data? document = some data) :
    (∃ s, type = .text ∧ document = .text s ∧ data = .text s) ∨
      (∃ b, type = .bool ∧ document = .bool b ∧ data = .bool b) ∨
        ∃ n, type = .int .i64 ∧ document = .int n ∧ data = .int n := by
  unfold data? at h
  split at h <;> simp_all

/-- What is read from the text of a scalar. -/
theorem read_scalarText (h : document.Plain) (hd : (scalar type).data? document = some data)
    (target : Target) : document.isScalar = true ∧ Template.Plain document.scalarText.toList ∧
      type.read target document.scalarText = .ok data := by
  rcases data?_scalar hd with ⟨s, rfl, rfl, rfl⟩ | ⟨b, rfl, rfl, rfl⟩ | ⟨n, rfl, rfl, rfl⟩
  · obtain ⟨ht⟩ := h
    exact ⟨rfl, ht, rfl⟩
  · have hr : readBool (Text.trim (Text.ofBool b)) = .ok b := by
      rw [trim_ofBool]
      cases b <;> rfl
    refine ⟨rfl, Template.plain_of_forall ?_, ?_⟩
    · cases b <;> simp [Document.scalarText, Document.shown, Text.ofBool]
    · simp only [ScalarType.read, Document.scalarText, Document.shown, hr]
  · obtain ⟨hl, hg⟩ : IntWidth.i64.least ≤ n ∧ n ≤ IntWidth.i64.greatest := by
      cases h with
      | int hl hg => exact ⟨hl, hg⟩
    have hr : readInt .i64 (Text.trim n.repr) = .ok n := by
      rw [trim_repr, readInt_repr .i64 hl hg]
    refine ⟨rfl, Template.plain_of_forall fun c hc => ?_, ?_⟩
    · rcases of_mem_repr hc with hdigit | rfl
      · rintro rfl
        cases hdigit
      · decide
    · simp only [ScalarType.read, Document.scalarText, Document.shown, hr]

end Schema

namespace Store

variable {store : Store} {path : List Label} {node : Node}

theorem node?_ofLabels (h : ∀ label ∈ path, label.Valid) :
    store.node? (Key.ofLabels path) = store.at? path := by
  rw [node?_eq, Key.path?_ofLabels h, Option.bind_some]

/-- A child of a branch stands at the path of the branch and its label. -/
theorem at?_child (label : Label) {children : Children} {entry : Label × Node}
    (hp : children.Proper label.parentKind)
    (hn : store.at? path = some (.ofChildren label children)) (hm : entry ∈ children) :
    store.at? (path ++ [entry.1]) = some entry.2 := by
  rw [at?_append, hn, Option.bind_some, Node.at?_ofChildren_cons hp (hp.labels entry hm) hm]
  rfl

end Store

namespace Schema

/-- The type is bound to the data of every document that stands in the store. -/
def Binds (schema : Schema) : Prop :=
  ∀ (document : Document) (data : Data), document.Plain → schema.data? document = some data →
    ∀ (store : Store) (path : List Label) (target : Target), (∀ label ∈ path, label.Valid) →
      target.key = Key.ofLabels path → store.at? path = document.node? →
      schema.bind store target = .ok data

theorem binds_scalar (type : ScalarType) : (scalar type).Binds := by
  intro document data h hd store path target hp hk hn
  obtain ⟨hs, hplain, hread⟩ := read_scalarText h hd target
  have hnode : store.node? target.key = some (.value document.scalarText) := by
    rw [hk, Store.node?_ofLabels hp, hn, Document.node?_scalar hs]
  have hvalue : store.requiredValue target = .ok document.scalarText :=
    (Store.requiredValue_of_value target hnode).trans (store.resolve_eq_self hplain)
  unfold bind ScalarType.bind
  rw [hvalue]
  exact hread

/-! ### Lists -/

variable {item : Schema} {store : Store} {path : List Label} {target : Target}

theorem bind_items (hb : item.Binds) (hp : ∀ label ∈ path, label.Valid)
    (hk : target.key = Key.ofLabels path) {items : List Document} (index : ℕ) {datas : List Data}
    (hplain : ∀ document ∈ items, document.Plain)
    (hlen : index + items.length ≤ Label.positionBound)
    (hn : ∀ entry ∈ Document.itemNodes index items, store.at? (path ++ [entry.1]) = some entry.2)
    (hd : items.mapM (fun document => item.data? document) = some datas) :
    ((Document.itemNodes index items).map fun child =>
      target.element (Segment.position child.1.text).shown none).mapM
        (fun target => item.bind store target) = .ok datas := by
  induction items generalizing index datas with
  | nil =>
    cases hd
    rfl
  | cons document rest ih =>
    rw [List.forall_mem_cons] at hplain
    rw [List.length_cons] at hlen
    obtain ⟨node, hnode⟩ := hplain.1.exists_node
    have hchildren : Document.itemNodes index (document :: rest) =
        (.position index, node) :: Document.itemNodes (index + 1) rest := by
      rw [Document.itemNodes, hnode]
      rfl
    rw [hchildren, List.forall_mem_cons] at hn
    rw [List.mapM_cons] at hd
    obtain ⟨data, hdata, hd⟩ := Option.bind_eq_some_iff.mp hd
    obtain ⟨others, hothers, hd⟩ := Option.bind_eq_some_iff.mp hd
    cases hd
    have hi : (Label.position index).Valid := show index < Label.positionBound by omega
    have hvalid : ∀ label ∈ path ++ [.position index], label.Valid :=
      List.forall_mem_append.mpr ⟨hp, List.forall_mem_singleton.mpr hi⟩
    have hkey : (target.element (Segment.ofIndex index).shown none).key =
        Key.ofLabels (path ++ [.position index]) := by
      rw [← Key.under_position hp hi, ← hk]
      rfl
    have hfirst : item.bind store
        (target.element (Segment.position (Label.position index).text).shown none) = .ok data :=
      hb document data hplain.1 hdata store _ _ hvalid hkey (hn.1.trans hnode.symm)
    have hrest := ih (index + 1) hplain.2 (by omega) hn.2 hothers
    rw [hchildren, List.map_cons, List.mapM_cons]
    rw [hfirst, hrest]
    rfl

theorem binds_list (hb : item.Binds) : (list item).Binds := by
  intro document data h hd store path target hp hk hn
  cases h with
  | @array items hne hlen hitems =>
    obtain ⟨datas, hdatas, hd⟩ := Option.bind_eq_some_iff.mp hd
    cases hd
    obtain ⟨node, hnode⟩ := (Document.Plain.array hne hlen hitems).exists_node
    have hwf := Document.node?_wellFormed (Document.Plain.array hne hlen hitems).named hnode
    obtain ⟨-, rfl⟩ := Document.of_gather hnode
    rw [hnode] at hn
    have hproper := (hwf.branch (show Node.branch? _ (.position 0) = some _ from rfl)).1
    have htargets : itemTargets store target =
        .ok ((Document.itemNodes 0 items).map fun child =>
          target.element (Segment.position child.1.text).shown none) := by
      unfold itemTargets
      rw [hk, Store.node?_ofLabels hp, hn]
    have hbound := bind_items hb hp hk 0 hitems (by omega)
      (fun entry he => Store.at?_child (.position 0) hproper hn he) hdatas
    unfold bind
    rw [htargets]
    exact congrArg (Except.map Data.list) hbound
  | _ => cases hd

/-! ### Maps -/

theorem bind_members (hb : item.Binds) (hp : ∀ label ∈ path, label.Valid)
    (hk : target.key = Key.ofLabels path) {members : Members} {datas : List (String × Data)}
    (hplain : ∀ member ∈ members, member.2.Plain)
    (hnames : ∀ member ∈ members, (Label.name member.1).Valid)
    (hn : ∀ entry ∈ Document.memberNodes members, store.at? (path ++ [entry.1]) = some entry.2)
    (hd : members.mapM (fun (name, document) => do return (name, ← item.data? document)) =
      some datas) :
    ((Document.memberNodes members).map fun child =>
      (child.1.text, target.element child.1.text none)).mapM
        (fun (name, target) => do return (name, ← item.bind store target)) = .ok datas := by
  induction members generalizing datas with
  | nil =>
    cases hd
    rfl
  | cons member rest ih =>
    obtain ⟨name, document⟩ := member
    rw [List.forall_mem_cons] at hplain hnames
    obtain ⟨node, hnode⟩ := hplain.1.exists_node
    have hchildren : Document.memberNodes ((name, document) :: rest) =
        (.name name, node) :: Document.memberNodes rest := by
      rw [Document.memberNodes, hnode]
      rfl
    rw [hchildren, List.forall_mem_cons] at hn
    rw [List.mapM_cons] at hd
    obtain ⟨entry, hentry, hd⟩ := Option.bind_eq_some_iff.mp hd
    obtain ⟨others, hothers, hd⟩ := Option.bind_eq_some_iff.mp hd
    obtain ⟨data, hdata, he⟩ := Option.bind_eq_some_iff.mp hentry
    cases hd
    cases he
    have hvalid : ∀ label ∈ path ++ [.name name], label.Valid :=
      List.forall_mem_append.mpr ⟨hp, List.forall_mem_singleton.mpr hnames.1⟩
    have hkey : (target.element name none).key = Key.ofLabels (path ++ [.name name]) := by
      rw [← Key.under_name hp hnames.1, ← hk]
      rfl
    have hfirst : item.bind store (target.element (Label.name name).text none) = .ok data :=
      hb document data hplain.1 hdata store _ _ hvalid hkey (hn.1.trans hnode.symm)
    have hrest := ih hplain.2 hnames.2 hn.2 hothers
    rw [hchildren, List.map_cons, List.mapM_cons]
    simp only [hfirst, hrest]
    rfl

theorem binds_dict (hb : item.Binds) : (dict item).Binds := by
  intro document data h hd store path target hp hk hn
  cases h with
  | @object members hne hsorted hwords hmembers =>
    obtain ⟨datas, hdatas, hd⟩ := Option.bind_eq_some_iff.mp hd
    cases hd
    have hplain := Document.Plain.object hne hsorted hwords hmembers
    obtain ⟨node, hnode⟩ := hplain.exists_node
    have hwf := Document.node?_wellFormed hplain.named hnode
    obtain ⟨-, rfl⟩ := Document.of_gather hnode
    rw [hnode] at hn
    have hproper := (hwf.branch (show Node.branch? _ (.name "") = some _ from rfl)).1
    have htargets : entryTargets store target =
        .ok ((Document.memberNodes members).map fun child =>
          (child.1.text, target.element child.1.text none)) := by
      unfold entryTargets
      rw [hk, Store.node?_ofLabels hp, hn]
    have hnames : ∀ member ∈ members, (Label.name member.1).Valid := fun member hm =>
      Document.name_valid (hwords member hm)
    have hbound := bind_members hb hp hk hmembers hnames
      (fun entry he => Store.at?_child (.name "") hproper hn he) hdatas
    unfold bind
    rw [htargets]
    exact congrArg (Except.map Data.dict) hbound
  | _ => cases hd

/-! ### Records -/

theorem bind_fields {fields : List (Field × Schema)} (hb : ∀ field ∈ fields, field.2.Binds)
    (hp : ∀ label ∈ path, label.Valid) (hk : target.key = Key.ofLabels path) {members : Members}
    {datas : List (String × Data)} (hplain : ∀ member ∈ members, member.2.Plain)
    (hwords : ∀ member ∈ members, isWord member.1 = true)
    (hn : ∀ member ∈ members, store.at? (path ++ [.name member.1]) = member.2.node?)
    (hd : fieldsData? fields members = some datas) :
    bindFields store target fields = .ok datas := by
  induction fields generalizing datas with
  | nil =>
    cases hd
    rfl
  | cons entry rest ih =>
    obtain ⟨⟨fieldName, tag, validator⟩, schema⟩ := entry
    rw [List.forall_mem_cons] at hb
    unfold fieldsData? at hd
    obtain ⟨⟨name, document⟩, hfind, hd⟩ := Option.bind_eq_some_iff.mp hd
    obtain ⟨data, hdata, hd⟩ := Option.bind_eq_some_iff.mp hd
    obtain ⟨others, hothers, hd⟩ := Option.bind_eq_some_iff.mp hd
    cases hd
    have hm := List.mem_of_find?_eq_some hfind
    have htag := List.find?_some hfind
    simp only [Bool.and_eq_true, decide_eq_true_eq, Option.isNone_iff_eq_none] at htag
    obtain ⟨rfl, rfl⟩ := htag
    have hword := hwords _ hm
    have hvalid : ∀ label ∈ path ++ [.name name], label.Valid :=
      List.forall_mem_append.mpr ⟨hp, List.forall_mem_singleton.mpr (Document.name_valid hword)⟩
    obtain ⟨place, hfield⟩ : ∃ place, target.field fieldName (Target.tagOf name) =
        .ok ⟨Key.ofLabels (path ++ [.name name]), none, none, place⟩ := by
      refine ⟨if target.path.isEmpty then fieldName else target.path ++ "." ++ fieldName, ?_⟩
      unfold Target.field
      rw [Target.parseTag_tagOf (isWord_iff.mp hword).2,
        ← Key.under_name hp (Document.name_valid hword), ← hk]
      rfl
    have hbound := hb.1 document data (hplain _ hm) hdata store _
      ⟨Key.ofLabels (path ++ [.name name]), none, none, place⟩ hvalid rfl (hn _ hm)
    unfold bindFields
    rw [ih hb.2 hothers]
    simp only [hfield]
    show Except.bind (schema.bind store ⟨_, none, none, place⟩) _ = _
    rw [hbound]
    rfl

theorem binds_record {fields : List (Field × Schema)} (hb : ∀ field ∈ fields, field.2.Binds) :
    (record fields).Binds := by
  intro document data h hd store path target hp hk hn
  cases h with
  | @object members hne hsorted hwords hmembers =>
    obtain ⟨datas, hdatas, hd⟩ := Option.bind_eq_some_iff.mp hd
    cases hd
    have hplain := Document.Plain.object hne hsorted hwords hmembers
    obtain ⟨node, hnode⟩ := hplain.exists_node
    have hwf := Document.node?_wellFormed hplain.named hnode
    obtain ⟨-, rfl⟩ := Document.of_gather hnode
    rw [hnode] at hn
    have hproper := (hwf.branch (show Node.branch? _ (.name "") = some _ from rfl)).1
    have hchild : ∀ member ∈ members,
        store.at? (path ++ [.name member.1]) = member.2.node? := fun member hm => by
      obtain ⟨child, hc⟩ := (hmembers member hm).exists_node
      rw [hc]
      exact Store.at?_child (.name "") hproper hn (Document.memberNodes_mem hm hc)
    have hbound := bind_fields hb hp hk hmembers hwords hchild hdatas
    unfold bind
    rw [hbound]
    rfl
  | _ => cases hd

/-! ### All types -/

mutual

/-- Binding a type at the place of a document gives the data of the document. -/
theorem binds : ∀ schema : Schema, schema.Binds
  | scalar type => binds_scalar type
  | option content => fun document data h hd => by cases document <;> cases hd
  | list item => binds_list (binds item)
  | dict item => binds_dict (binds item)
  | record fields => binds_record (binds_fields fields)

theorem binds_fields : ∀ fields : List (Field × Schema), ∀ field ∈ fields, field.2.Binds
  | [] => nofun
  | (_, schema) :: rest => List.forall_mem_cons.mpr ⟨binds schema, binds_fields rest⟩

end

end Schema

/-- **A plain document survives the store.** Its pairs are accepted by an empty store, and a type of
its shape, bound to all that is stored, gives the data of the document. -/
theorem Document.bind_flatten {document : Document} (h : document.Plain)
    (hs : document.isScalar = false) :
    ∃ pairs store, document.flatten? = some pairs ∧ Store.ofPairs pairs = .ok store ∧
      ∀ (schema : Schema) (data : Data), schema.data? document = some data →
        store.bind "$\x7b\x7d" schema = .ok data := by
  refine ⟨document.pairs "", ⟨document.node?⟩, ?_, ofPairs_pairs h.named hs, fun schema data hd => ?_⟩
  · unfold flatten?
    rw [hs]
    rfl
  · have htag : Target.ofTag "$\x7b\x7d" = .ok ⟨"", none, none, ""⟩ := by cbv
    have hroot : Store.at? ⟨document.node?⟩ [] = document.node? := by
      rcases h.exists_node with ⟨node, hn⟩
      rw [hn]
      rfl
    have hbound := schema.binds document data h hd ⟨document.node?⟩ [] ⟨"", none, none, ""⟩
      (List.forall_mem_nil _) rfl hroot
    unfold Store.bind Store.bindTo
    rw [htag]
    show Except.bind (schema.bind _ _) _ = _
    rw [hbound]
    rfl

/-- An array of arrays beside an object. -/
def cluster : Document :=
  .object [("hosts", .array [.array [.text "a:80", .text ""], .array [.text " b, $c "]]),
    ("node-0", .object [("_on", .bool true), ("size", .int (-42))])]

/-- The shape of `cluster`; its fields stand in another order than the members. -/
def clusterSchema : Schema :=
  .record [(⟨"node", some "$\x7bnode-0\x7d", none⟩, .record [
      (⟨"size", some "$\x7bsize\x7d", none⟩, .scalar (.int .i64)),
      (⟨"on", some "$\x7b_on\x7d", none⟩, .scalar .bool)]),
    (⟨"hosts", some "$\x7bhosts\x7d", none⟩, .list (.list (.scalar .text)))]

theorem cluster_plain : cluster.Plain := by
  have htexts : ∀ text ∈ ["a:80", "", " b, $c "], Template.Plain text.toList := by
    unfold Template.Plain
    decide +kernel
  simp only [List.forall_mem_cons] at htexts
  obtain ⟨hfirst, hsecond, hthird, -⟩ := htexts
  have hfront : (Document.array [.text "a:80", .text ""]).Plain :=
    .array (by simp) (by decide)
      (List.forall_mem_cons.mpr ⟨.text hfirst, List.forall_mem_singleton.mpr (.text hsecond)⟩)
  have hback : (Document.array [.text " b, $c "]).Plain :=
    .array (by simp) (by decide) (List.forall_mem_singleton.mpr (.text hthird))
  have hhosts : (Document.array [.array [.text "a:80", .text ""], .array [.text " b, $c "]]).Plain :=
    .array (by simp) (by decide)
      (List.forall_mem_cons.mpr ⟨hfront, List.forall_mem_singleton.mpr hback⟩)
  have hnode : (Document.object [("_on", .bool true), ("size", .int (-42))]).Plain :=
    .object (by simp) (List.pairwise_pair.mpr (by cbv)) (by decide +kernel)
      (List.forall_mem_cons.mpr ⟨.bool, List.forall_mem_singleton.mpr (.int (by decide) (by decide))⟩)
  exact .object (by simp) (List.pairwise_pair.mpr (by cbv)) (by decide +kernel)
    (List.forall_mem_cons.mpr ⟨hhosts, List.forall_mem_singleton.mpr hnode⟩)

/-- What `cluster` comes back as. -/
theorem bind_flatten_cluster : cluster.Plain ∧ cluster.isScalar = false ∧
    ∃ pairs store, cluster.flatten? = some pairs ∧ Store.ofPairs pairs = .ok store ∧
      store.bind "$\x7b\x7d" clusterSchema = .ok (.record [
        ("node", .record [("size", .int (-42)), ("on", .bool true)]),
        ("hosts", .list [.list [.text "a:80", .text ""], .list [.text " b, $c "]])]) := by
  refine ⟨cluster_plain, rfl, ?_⟩
  obtain ⟨pairs, store, hf, hp, hb⟩ := Document.bind_flatten cluster_plain rfl
  exact ⟨pairs, store, hf, hp, hb clusterSchema _ (by cbv)⟩

end BeanContainer
