/-
# Bindings below a key

What is bound at a key depends on the node at the key alone: bound at the root of a store that is
this node, a type has the same value, or fails in the same form. The texts that the key is joined
with on the way down need not be keys.

Key definitions: `Fault.Alike`, `Matching`, `Target.Facing`, `Schema.Plain`.
Key theorems: `Store.node?_under`, `Schema.bind_matching`, `Store.bindTo_relative`.
-/
import BeanContainer.Proofs.Binding.Scalar
import BeanContainer.Proofs.Store.Replay
import BeanContainer.Proofs.Template

namespace BeanContainer

/-! ### Nodes below a key -/

namespace Store

variable {store : Store} {node : Node} {key text : String}

/-- Below a key everything is as below its node. -/
theorem node?_under (h : store.node? key = some node) (sub : String) :
    store.node? (Key.under key sub) = node? ⟨some node⟩ sub := by
  rw [node?_eq] at h
  obtain ⟨path, hp, hn⟩ := Option.bind_eq_some_iff.mp h
  rw [node?_eq, node?_eq, Key.path?_under, hp, Option.bind_some]
  cases Key.path? sub with
  | none => rfl
  | some below => rw [Option.map_some, Option.bind_some, at?_append, hn]; rfl

/-- The texts that are found are those of the leaves. -/
theorem plain_of_node? (hp : ∀ leaf ∈ store.leaves, Template.Plain leaf.2.toList)
    (h : store.node? key = some (.value text)) : Template.Plain text.toList := by
  obtain ⟨place, hl⟩ := leaf_of_node? h
  exact hp _ hl

end Store

/-! ### Faults of one form -/

/-- Binding faults of one form, for the same reason. Only the keys that they name may differ. -/
inductive BindingFault.Alike : BindingFault → BindingFault → Prop
  | same (reason : BindingFault) : Alike reason reason
  | wrongKind (key key' : String) (kind : NodeKind) : Alike (wrongKind key kind) (wrongKind key' kind)

/-- Faults of one form, for the same reason. Only the keys and targets that they name may differ. -/
inductive Fault.Alike : Fault → Fault → Prop
  | same (fault : Fault) : Alike fault fault
  | missingProperty (key key' : String) : Alike (missingProperty key) (missingProperty key')
  | binding (target target' : String) {reason reason' : BindingFault} (h : reason.Alike reason') :
      Alike (binding target reason) (binding target' reason')

/-- Two results match: `R` relates what they bring, or they fail in the same form. They fail with
the same fault where it is `Known` that they are asked for the same. -/
inductive Matching (Known : Prop) {α β : Type} (R : α → β → Prop) :
    Except Fault α → Except Fault β → Prop
  | ok {a : α} {b : β} (h : R a b) : Matching Known R (.ok a) (.ok b)
  | error {fault fault' : Fault} (h : fault.Alike fault') (hk : Known → fault = fault') :
      Matching Known R (.error fault) (.error fault')

namespace Matching

variable {Known : Prop} {α β γ δ : Type} {R : α → β → Prop} {S : γ → δ → Prop}
  {x : Except Fault α} {y : Except Fault β} {f : α → Except Fault γ} {g : β → Except Fault δ}

theorem fault (fault : Fault) : Matching Known R (.error fault) (.error fault) :=
  error (.same fault) fun _ => rfl

theorem bind (h : Matching Known R x y) (hf : ∀ a b, R a b → Matching Known S (f a) (g b)) :
    Matching Known S (x >>= f) (y >>= g) := by
  cases h with
  | ok h => exact hf _ _ h
  | error h hk => exact error h hk

theorem mapM {as : List α} {bs : List β} (h : List.Forall₂ R as bs)
    (hf : ∀ a b, R a b → Matching Known S (f a) (g b)) :
    Matching Known (List.Forall₂ S) (as.mapM f) (bs.mapM g) := by
  induction h with
  | nil => exact ok .nil
  | cons hab _ ih =>
    rw [List.mapM_cons, List.mapM_cons]
    refine (hf _ _ hab).bind fun c d hcd => ?_
    exact ih.bind fun cs ds hs => ok (.cons hcd hs)

/-- Two results with the same data match when each is the other one. -/
theorem eq_iff {data : α} {y : Except Fault α} (h : Matching Known Eq x y) :
    x = .ok data ↔ y = .ok data := by
  cases h with
  | ok h => rw [h]
  | error => exact ⟨nofun, nofun⟩

theorem exists_fault {fault : Fault} (h : Matching Known R x y) (hx : x = .error fault) :
    ∃ fault', y = .error fault' ∧ fault.Alike fault' := by
  cases h with
  | ok => cases hx
  | error h =>
    cases hx
    exact ⟨_, rfl, h⟩

theorem exists_fault' {fault' : Fault} (h : Matching Known R x y) (hy : y = .error fault') :
    ∃ fault, x = .error fault ∧ fault.Alike fault' := by
  cases h with
  | ok => cases hy
  | error h =>
    cases hy
    exact ⟨_, rfl, h⟩

theorem eq {y : Except Fault α} (h : Matching Known Eq x y) (hk : Known) : x = y := by
  cases h with
  | ok h => rw [h]
  | error _ hf => rw [hf hk]

end Matching

theorem forall₂_mapIdx {α β γ : Type} {R : β → γ → Prop} {f : ℕ → α → β} {g : ℕ → α → γ} {as : List α}
    (h : ∀ index, ∀ a ∈ as[index]?, R (f index a) (g index a)) :
    List.Forall₂ R (as.mapIdx f) (as.mapIdx g) := by
  rw [List.mapIdx_eq_zipIdx_map, List.mapIdx_eq_zipIdx_map, List.forall₂_map_left_iff,
    List.forall₂_map_right_iff, List.forall₂_same]
  rintro ⟨a, index⟩ hm
  exact h index a (List.mk_mem_zipIdx_iff_getElem?.mp hm)

/-! ### Parts of texts without placeholders -/

theorem Template.Plain.of_infix {cs part : List Char} (h : Plain cs) (hi : part <:+: cs) :
    Plain part := fun hp => h (hp.trans hi)

theorem infix_of_mem_splitOn {cs part : List Char} {c : Char} (h : part ∈ cs.splitOn c) :
    part <:+: cs := by
  obtain ⟨index, hindex⟩ := List.getElem?_of_mem h
  have hm : part ∈ (cs.splitOn c).intersperse [c] := by
    apply List.mem_of_getElem?
    rw [List.getElem?_intersperse_two_mul]
    exact hindex
  calc part <:+: [c].intercalate (cs.splitOn c) := List.infix_of_mem_flatten hm
    _ = cs := List.intercalate_splitOn c

/-- The pieces of a text without placeholders have none. -/
theorem Schema.plain_commaPieces {raw piece : String} (h : Template.Plain raw.toList)
    (hm : piece ∈ commaPieces raw) : Template.Plain piece.toList := by
  unfold commaPieces at hm
  split at hm
  · cases hm
  · obtain ⟨part, hpart, rfl⟩ := List.mem_map.mp hm
    rw [String.toList_ofList]
    exact h.of_infix ((Text.trimChars_infix part).trans
      ((infix_of_mem_splitOn hpart).trans (Text.trimChars_infix raw.toList)))

/-! ### Facing targets -/

/-- A field without a validator, in whose tag no default has a placeholder. -/
structure Field.Plain (field : Field) : Prop where
  validator : field.validator = none
  default : ∀ tag ∈ field.tag, ∀ key text, Target.parseTag tag = .ok (key, some text) →
    Template.Plain text.toList

theorem Field.plain_of_parseTag {name tag key : String} {default : Option String}
    (h : Target.parseTag tag = .ok (key, default))
    (hd : ∀ text ∈ default, Template.Plain text.toList) : Plain ⟨name, some tag, none⟩ where
  validator := rfl
  default := by
    rintro _ ⟨⟩ key' text ht
    rw [h] at ht
    cases ht
    exact hd text rfl

/-- All fields of all records in the type are plain. -/
inductive Schema.Plain : Schema → Prop
  | scalar (type : ScalarType) : Plain (scalar type)
  | option {content : Schema} : Plain content → Plain (option content)
  | list {item : Schema} : Plain item → Plain (list item)
  | dict {item : Schema} : Plain item → Plain (dict item)
  | record {fields : List (Field × Schema)} : (∀ field ∈ fields, field.1.Plain) →
      (∀ field ∈ fields, Plain field.2) → Plain (record fields)

namespace Target

variable {store store' : Store} {Known : Prop} {target target' : Target}

/-- Targets in two stores below which the same is stored, without placeholders. -/
structure Facing (store store' : Store) (Known : Prop) (target target' : Target) : Prop where
  nodes : ∀ sub, store.node? (Key.under target.key sub) = store'.node? (Key.under target'.key sub)
  plain : ∀ sub text, store.node? (Key.under target.key sub) = some (.value text) →
    Template.Plain text.toList
  default : target.default = target'.default
  plainDefault : ∀ text ∈ target.default, Template.Plain text.toList
  known : Known → target = target'

namespace Facing

theorem node (h : Facing store store' Known target target') :
    store.node? target.key = store'.node? target'.key := by
  have hn := h.nodes ""
  rwa [Key.under_empty, Key.under_empty] at hn

theorem plain_node (h : Facing store store' Known target target') {text : String}
    (hn : store.node? target.key = some (.value text)) : Template.Plain text.toList :=
  h.plain "" text (by rwa [Key.under_empty])

/-- Targets whose keys lead on from facing targets in the same way. -/
theorem below (h : Facing store store' Known target target') {sub path path' : String}
    {default : Option String} (hd : ∀ text ∈ default, Template.Plain text.toList)
    (hk : Known → path = path') :
    Facing store store' Known ⟨Key.under target.key sub, default, none, path⟩
      ⟨Key.under target'.key sub, default, none, path'⟩ where
  nodes key := by
    rw [Key.under_assoc, Key.under_assoc]
    exact h.nodes _
  plain key text hn := by
    rw [Key.under_assoc] at hn
    exact h.plain _ text hn
  default := rfl
  plainDefault := hd
  known hknown := by rw [h.known hknown, hk hknown]

theorem unguarded (h : Facing store store' Known target target') :
    Facing store store' Known { target with validator := none }
      { target' with validator := none } :=
  { h with known := fun hk => by rw [h.known hk] }

theorem element (h : Facing store store' Known target target') (sub : String)
    {default : Option String} (hd : ∀ text ∈ default, Template.Plain text.toList) :
    Facing store store' Known (target.element sub default) (target'.element sub default) :=
  h.below hd fun hk => by rw [h.known hk]

theorem field (h : Facing store store' Known target target') (name : String) {tag : String}
    (ht : ∀ key text, parseTag tag = .ok (key, some text) → Template.Plain text.toList) :
    Matching Known (Facing store store' Known) (target.field name tag) (target'.field name tag) := by
  unfold Target.field
  rcases hp : parseTag tag with fault | ⟨key, default⟩
  · exact .fault fault
  · refine .ok (h.below ?_ fun hk => by rw [h.known hk])
    rintro text rfl
    exact ht key text hp

end Facing
end Target

/-! ### Values of facing targets -/

section Facing

variable {store store' : Store} {Known : Prop} {target target' : Target}

theorem Store.rawValue_matching (h : Target.Facing store store' Known target target') :
    Matching Known (fun raw raw' => raw = raw' ∧ ∀ text : String, raw = some text →
      Template.Plain text.toList) (store.rawValue target) (store'.rawValue target') := by
  have hplain : ∀ text : String, Template.Plain text.toList → Matching Known
      (fun raw raw' => raw = raw' ∧ ∀ text : String, raw = some text → Template.Plain text.toList)
      ((store.resolve text).map some) ((store'.resolve text).map some) := by
    intro text ht
    rw [store.resolve_eq_self ht, store'.resolve_eq_self ht]
    exact .ok ⟨rfl, fun _ he => Option.some.inj he ▸ ht⟩
  unfold rawValue
  rw [← h.node, ← h.default]
  rcases hn : store.node? target.key with _ | node
  · rcases hd : target.default with _ | text
    · exact .ok ⟨rfl, nofun⟩
    · exact hplain text (h.plainDefault text hd)
  · cases node with
    | value text => exact hplain text (h.plain_node hn)
    | map | array => exact .error (.binding _ _ (.wrongKind _ _ _)) fun hk => by rw [h.known hk]

theorem Store.requiredValue_matching (h : Target.Facing store store' Known target target') :
    Matching Known (fun raw raw' => raw = raw' ∧ Template.Plain raw.toList)
      (store.requiredValue target) (store'.requiredValue target') := by
  refine (rawValue_matching h).bind ?_
  rintro raw _ ⟨rfl, hraw⟩
  cases raw with
  | none => exact .error (.missingProperty _ _) fun hk => by rw [h.known hk]
  | some text => exact .ok ⟨rfl, hraw text rfl⟩

namespace ScalarType

theorem read_matching (type : ScalarType) (h : Known → target = target') (raw : String) :
    Matching Known Eq (type.read target raw) (type.read target' raw) := by
  have hfault : ∀ reason, Matching Known (Eq : Data → Data → Prop)
      (.error (.binding target.shown reason)) (.error (.binding target'.shown reason)) :=
    fun reason => .error (.binding _ _ (.same reason)) fun hk => by rw [h hk]
  cases type with
  | bool | int | float32 | float64 =>
    unfold read
    dsimp only
    split
    · exact .ok rfl
    · exact hfault _
  | text => exact .ok rfl
  | duration =>
    unfold read
    dsimp only
    split
    · exact .ok rfl
    · exact .fault _
    · exact hfault _

theorem bind_matching (type : ScalarType) (h : Target.Facing store store' Known target target') :
    Matching Known Eq (type.bind store target) (type.bind store' target') := by
  refine (Store.requiredValue_matching h).bind ?_
  rintro raw _ ⟨rfl, -⟩
  exact type.read_matching h.known raw

end ScalarType

namespace Schema

theorem itemTargets_matching (h : Target.Facing store store' Known target target') :
    Matching Known (List.Forall₂ (Target.Facing store store' Known))
      (itemTargets store target) (itemTargets store' target') := by
  have hpieces : Matching Known (List.Forall₂ (Target.Facing store store' Known))
      (do
        let raw ← store.requiredValue target
        return (commaPieces raw).mapIdx fun index piece =>
          target.element (Segment.ofIndex index).shown (some piece))
      (do
        let raw ← store'.requiredValue target'
        return (commaPieces raw).mapIdx fun index piece =>
          target'.element (Segment.ofIndex index).shown (some piece)) := by
    refine (Store.requiredValue_matching h).bind ?_
    rintro raw _ ⟨rfl, hraw⟩
    refine .ok ?_
    refine forall₂_mapIdx fun index piece hm => h.element _ fun text ht => ?_
    cases ht
    exact plain_commaPieces hraw (List.mem_of_getElem? hm)
  unfold itemTargets
  rw [← h.node]
  rcases store.node? target.key with _ | node
  · exact hpieces
  · cases node with
    | value text => exact hpieces
    | map children =>
      exact .error (.binding _ _ (.wrongKind _ _ _)) fun hk => by rw [h.known hk]
    | array children =>
      refine .ok ?_
      rw [List.forall₂_map_left_iff, List.forall₂_map_right_iff, List.forall₂_same]
      exact fun child _ => h.element _ nofun

theorem entryTargets_matching (h : Target.Facing store store' Known target target') :
    Matching Known
      (List.Forall₂ fun entry entry' => entry.1 = entry'.1 ∧
        Target.Facing store store' Known entry.2 entry'.2)
      (entryTargets store target) (entryTargets store' target') := by
  unfold entryTargets
  rw [← h.node, ← h.default]
  rcases store.node? target.key with _ | node
  · rcases target.default with _ | text
    · exact .error (.missingProperty _ _) fun hk => by rw [h.known hk]
    · dsimp only
      split
      · exact .ok .nil
      · exact .error (.binding _ _ (.same _)) fun hk => by rw [h.known hk]
  · cases node with
    | map children =>
      refine .ok ?_
      rw [List.forall₂_map_left_iff, List.forall₂_map_right_iff, List.forall₂_same]
      exact fun child _ => ⟨rfl, h.element _ nofun⟩
    | value | array =>
      exact .error (.binding _ _ (.wrongKind _ _ _)) fun hk => by rw [h.known hk]

/-- The fields of records match when their types do. -/
theorem bindFields_matching {fields : List (Field × Schema)}
    (h : Target.Facing store store' Known target target')
    (hp : ∀ field ∈ fields, field.1.Plain)
    (hf : ∀ field ∈ fields, ∀ inner inner', Target.Facing store store' Known inner inner' →
      Matching Known Eq (field.2.bind store inner) (field.2.bind store' inner')) :
    Matching Known Eq (bindFields store target fields) (bindFields store' target' fields) := by
  induction fields with
  | nil => exact .ok rfl
  | cons entry rest ih =>
    obtain ⟨⟨name, tag, validator⟩, schema⟩ := entry
    rw [List.forall_mem_cons] at hp hf
    obtain ⟨⟨hvalidator, hdefault⟩, hrest⟩ := hp
    obtain rfl : validator = none := hvalidator
    have hbehind : ∀ data : Data, Matching Known Eq
        ((bindFields store target rest).bind fun more => .ok ((name, data) :: more))
        ((bindFields store' target' rest).bind fun more => .ok ((name, data) :: more)) := by
      intro data
      refine (ih hrest hf.2).bind ?_
      rintro more _ rfl
      exact .ok rfl
    unfold bindFields
    cases tag with
    | none => exact hbehind schema.zero
    | some tag =>
      refine (h.field name (hdefault tag rfl)).bind fun inner inner' hinner => ?_
      refine (hf.1 _ _ hinner.unguarded).bind ?_
      rintro data _ rfl
      exact hbehind data

/-- A plain type has matching values at facing targets. -/
theorem bind_matching {schema : Schema} (hs : schema.Plain)
    (h : Target.Facing store store' Known target target') :
    Matching Known Eq (schema.bind store target) (schema.bind store' target') := by
  induction hs generalizing target target' with
  | scalar type => exact type.bind_matching h
  | option _ ih =>
    have hhas : store.has target.key = store'.has target'.key := by
      unfold Store.has
      rw [h.node]
    unfold bind
    rw [← hhas, ← h.default]
    split
    · exact .ok rfl
    · refine (ih h).bind ?_
      rintro data _ rfl
      exact .ok rfl
  | list _ ih =>
    unfold bind
    refine (itemTargets_matching h).bind fun targets targets' ht => ?_
    refine (Matching.mapM ht fun inner inner' hi => ih hi).bind fun items items' hitems => ?_
    rw [List.forall₂_eq_eq_eq] at hitems
    exact .ok (congrArg Data.list hitems)
  | dict _ ih =>
    unfold bind
    refine (entryTargets_matching h).bind fun targets targets' ht => ?_
    refine (Matching.mapM (S := Eq) ht ?_).bind fun entries entries' he => ?_
    · rintro ⟨name, inner⟩ ⟨_, inner'⟩ ⟨rfl, hi⟩
      refine (ih hi).bind ?_
      rintro data _ rfl
      exact .ok rfl
    · rw [List.forall₂_eq_eq_eq] at he
      exact .ok (congrArg Data.dict he)
  | record hp _ ih =>
    unfold bind
    refine (bindFields_matching h hp fun field hm _ _ => ih field hm).bind ?_
    rintro data _ rfl
    exact .ok rfl

end Schema
end Facing

/-! ### Bindings at a key -/

namespace Store

variable {store other : Store} {node : Node} {key : String} {schema : Schema}

theorem bindTo_matching {Known : Prop} {target target' : Target} (hv : target.validator = none)
    (hv' : target'.validator = none) (hs : schema.Plain)
    (h : Target.Facing store other Known target target') :
    Matching Known Eq (store.bindTo target schema) (other.bindTo target' schema) := by
  rw [bindTo_unguarded hv, bindTo_unguarded hv']
  exact Schema.bind_matching hs h

/-- **Binding is relative.** A type at a key has the value that it has at the root of the store that
is the node at the key, or fails there in the same form. So nothing outside of the key matters: in
every store with this node at the key, the result is the same. -/
theorem bindTo_relative (hn : store.node? key = some node)
    (hp : ∀ leaf ∈ node.leaves [], Template.Plain leaf.2.toList) (hs : schema.Plain)
    (path path' : String) :
    (∀ data, store.bindTo ⟨key, none, none, path⟩ schema = .ok data ↔
      bindTo ⟨some node⟩ ⟨"", none, none, path'⟩ schema = .ok data) ∧
    (∀ fault, store.bindTo ⟨key, none, none, path⟩ schema = .error fault →
      ∃ fault', bindTo ⟨some node⟩ ⟨"", none, none, path'⟩ schema = .error fault' ∧
        fault.Alike fault') ∧
    (∀ fault', bindTo ⟨some node⟩ ⟨"", none, none, path'⟩ schema = .error fault' →
      ∃ fault, store.bindTo ⟨key, none, none, path⟩ schema = .error fault ∧ fault.Alike fault') ∧
    ∀ other : Store, other.node? key = some node →
      other.bindTo ⟨key, none, none, path⟩ schema = store.bindTo ⟨key, none, none, path⟩ schema := by
  have hplain : ∀ {store : Store}, store.node? key = some node → ∀ sub text,
      store.node? (Key.under key sub) = some (.value text) → Template.Plain text.toList := by
    intro store hn sub text ht
    rw [node?_under hn] at ht
    have hleaves : ∀ leaf ∈ leaves ⟨some node⟩, Template.Plain leaf.2.toList := hp
    exact plain_of_node? hleaves ht
  have hroot : Target.Facing store ⟨some node⟩ False ⟨key, none, none, path⟩
      ⟨"", none, none, path'⟩ :=
    ⟨fun sub => by rw [node?_under hn, Key.empty_under], hplain hn, rfl, nofun, False.elim⟩
  have hmatch := bindTo_matching rfl rfl hs hroot
  refine ⟨fun data => hmatch.eq_iff, fun fault => hmatch.exists_fault,
    fun fault' => hmatch.exists_fault', fun other ho => ?_⟩
  have hsame : Target.Facing other store True ⟨key, none, none, path⟩ ⟨key, none, none, path⟩ :=
    ⟨fun sub => by rw [node?_under hn, node?_under ho], hplain ho, rfl, nofun, fun _ => rfl⟩
  exact (bindTo_matching rfl rfl hs hsame).eq trivial

/-- The node of two hosts, one of them with two names. -/
def hostsNode : Node :=
  .map [(.name "hosts", .array [(.position 0, .value "z"), (.position 2, .value "x, y")])]

/-- A list of lists of names, its first entry, and in a record of its own a port. -/
def hostsSchema : Schema :=
  .record [(⟨"hosts", some "$\x7bhosts\x7d", none⟩, .list (.list (.scalar .text))),
    (⟨"first", some "$\x7bhosts[0]\x7d", none⟩, .scalar .text),
    (⟨"rest", some "$\x7b\x7d", none⟩, .record [
      (⟨"port", some "$\x7bport:=80\x7d", none⟩, .scalar (.int .i64))])]

theorem hostsSchema_plain : hostsSchema.Plain := by
  have hbare : ∀ {name tag key : String}, Target.parseTag tag = .ok (key, none) →
      Field.Plain ⟨name, some tag, none⟩ := fun h => Field.plain_of_parseTag h nofun
  have hhosts : Field.Plain ⟨"hosts", some "$\x7bhosts\x7d", none⟩ :=
    hbare (show Target.parseTag _ = .ok ("hosts", none) by cbv)
  have hfirst : Field.Plain ⟨"first", some "$\x7bhosts[0]\x7d", none⟩ :=
    hbare (show Target.parseTag _ = .ok ("hosts[0]", none) by cbv)
  have hrest : Field.Plain ⟨"rest", some "$\x7b\x7d", none⟩ :=
    hbare (show Target.parseTag _ = .ok ("", none) by cbv)
  have hport : Field.Plain ⟨"port", some "$\x7bport:=80\x7d", none⟩ := by
    have hparse : Target.parseTag "$\x7bport:=80\x7d" = .ok ("port", some "80") := by cbv
    refine Field.plain_of_parseTag hparse ?_
    rintro _ ⟨⟩
    exact Template.plain_of_forall (by simp)
  refine .record ?_ ?_
  · simp [hhosts, hfirst, hrest]
  · simp only [List.forall_mem_cons]
    refine ⟨.list (.list (.scalar _)), .scalar _, .record ?_ ?_, List.forall_mem_nil _⟩
    · simp [hport]
    · simp only [List.forall_mem_cons]
      exact ⟨.scalar _, List.forall_mem_nil _⟩

/-- Hosts below `a`, read as if they were everything that is stored. -/
theorem bindTo_relative_hosts :
    (ofCalls [("b", "$\x7b"), ("a.hosts[2]", "x, y"), ("a.hosts[0]", "z")]).bindTo
        ⟨"a", none, none, ""⟩ hostsSchema =
      .ok (.record [("hosts", .list [.list [.text "z"], .list [.text "x", .text "y"]]),
        ("first", .text "z"), ("rest", .record [("port", .int 80)])]) := by
  have hn : (ofCalls [("b", "$\x7b"), ("a.hosts[2]", "x, y"), ("a.hosts[0]", "z")]).node? "a" =
      some hostsNode := by cbv
  have hleaves : hostsNode.leaves [] = [([.name "hosts", .position 0], "z"),
      ([.name "hosts", .position 2], "x, y")] := by cbv
  have hp : ∀ leaf ∈ hostsNode.leaves [], Template.Plain leaf.2.toList := by
    have htexts : ∀ leaf ∈ hostsNode.leaves [], ∀ c ∈ leaf.2.toList, c ≠ '$' := by
      rw [hleaves]
      simp
    exact fun leaf hl => Template.plain_of_forall (htexts leaf hl)
  exact ((bindTo_relative hn hp hostsSchema_plain "" "").1 _).mpr (by cbv)

end Store
end BeanContainer
