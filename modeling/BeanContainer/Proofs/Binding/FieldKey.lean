/-
# The keys of fields

The key of a field is that of its record and, behind it, what the tag of the field names. To put
two keys together is to append their segments, and what is put together is a key only if both are.
So the key of a field leads to the node that the tag names below the node of the record, and to
nothing if it names none there.

Key definitions: `Node.Reaches`.
Key theorems: `Store.node?_under_eq_some_iff`, `Key.under_concatenates`.
-/
import BeanContainer.Binding.Target
import BeanContainer.Proofs.Store.Replay

namespace BeanContainer

/-- The text is the key of a path from `above` to `node`. A text that is no key reaches nothing. -/
def Node.Reaches (above : Node) (sub : String) (node : Node) : Prop :=
  ∃ path, Key.path? sub = some path ∧ above.at? path = some node

/-- A relative key leads to what it reaches from the node that it is relative to. -/
theorem Store.node?_under_eq_some_iff {store : Store} {key sub : String} {node : Node} :
    store.node? (Key.under key sub) = some node ↔
      ∃ above, store.node? key = some above ∧ above.Reaches sub node := by
  simp only [node?_eq, Key.path?_under]
  constructor
  · intro h
    obtain ⟨path, hp, hn⟩ := Option.bind_eq_some_iff.mp h
    obtain ⟨front, hf, hp⟩ := Option.bind_eq_some_iff.mp hp
    obtain ⟨back, hb, rfl⟩ := Option.map_eq_some_iff.mp hp
    rw [at?_append] at hn
    obtain ⟨above, ha, hn⟩ := Option.bind_eq_some_iff.mp hn
    exact ⟨above, by rw [hf]; exact ha, back, hb, hn⟩
  · rintro ⟨above, ha, back, hb, hn⟩
    obtain ⟨front, hf, ha⟩ := Option.bind_eq_some_iff.mp ha
    rw [hf, hb, Option.bind_some, Option.map_some, Option.bind_some, at?_append, ha, Option.bind_some,
      hn]

/-- A text that is a tag is one for the field of every record. -/
theorem Target.exists_field {tag : String} {relative : Target} (h : ofTag tag = .ok relative)
    (target : Target) (name : String) : ∃ nested, target.field name tag = .ok nested ∧
      nested.key = Key.under target.key relative.key := by
  unfold ofTag at h
  unfold field
  rcases hp : parseTag tag with fault | ⟨key, default⟩
  · rw [hp] at h
    cases h
  · rw [hp] at h
    cases h
    exact ⟨_, rfl, rfl⟩

namespace Key

/-- **To put keys together is to append their segments.** A text is a key relative to another one if
and only if both are keys, and then its segments are those of the other and its own; it doesn't
matter which of two relative keys is resolved first. So the key of a field leads to the nodes that
the key in its tag reaches from the node of the record, and to no other. -/
theorem under_concatenates (parent sub : String) :
    (∀ segments, split (under parent sub) = .ok segments ↔
      ∃ front back, split parent = .ok front ∧ split sub = .ok back ∧ segments = front ++ back) ∧
    (split (under parent sub) = .error (.invalidKey (under parent sub)) ↔
      split parent = .error (.invalidKey parent) ∨ split sub = .error (.invalidKey sub)) ∧
    (∀ key, under (under parent sub) key = under parent (under sub key)) ∧
    ∀ (target relative : Target) (name tag : String), Target.ofTag tag = .ok relative →
      ∃ nested, target.field name tag = .ok nested ∧ ∀ (store : Store) (node : Node),
        store.node? nested.key = some node ↔
          ∃ above, store.node? target.key = some above ∧ above.Reaches relative.key node := by
  refine ⟨fun segments => split_under_eq_ok, split_under_eq_error, under_assoc parent sub, ?_⟩
  intro target relative name tag htag
  obtain ⟨nested, hfield, hkey⟩ := Target.exists_field htag target name
  refine ⟨nested, hfield, fun store node => ?_⟩
  rw [hkey]
  exact Store.node?_under_eq_some_iff

/-- A position stands right behind a name and a dot does not, and a field is read below an element
of an array. -/
theorem under_concatenates_position :
    split "db[007].host" = .ok [.name "db", .position "007", .name "host"] ∧
      split "db..host" = .error (.invalidKey "db..host") ∧
      ∃ nested, Target.field ⟨"db", none, none, ""⟩ "host" "$\x7b[007].host\x7d" = .ok nested ∧
        Store.node? ⟨some (.single "x" [.name "db", .position 7, .name "host"])⟩ nested.key =
          some (.value "x") := by
  have hjoined : under "db" "[007].host" = "db[007].host" := by decide +kernel
  have hdots : under "db" ".host" = "db..host" := by decide +kernel
  have hdb : split "db" = .ok [.name "db"] := by cbv
  have hhost : split "[007].host" = .ok [.position "007", .name "host"] := by cbv
  have hdot : split ".host" = .error (.invalidKey ".host") := by cbv
  refine ⟨?_, ?_, ?_⟩
  · rw [← hjoined]
    exact ((under_concatenates "db" "[007].host").1 _).mpr ⟨_, _, hdb, hhost, rfl⟩
  · rw [← hdots]
    exact (under_concatenates "db" ".host").2.1.mpr (.inr hdot)
  · have htag : Target.ofTag "$\x7b[007].host\x7d" = .ok ⟨"[007].host", none, none, ""⟩ := by rfl
    obtain ⟨nested, hfield, hnode⟩ :=
      (under_concatenates "db" "[007].host").2.2.2 ⟨"db", none, none, ""⟩ _ "host" _ htag
    refine ⟨nested, hfield, (hnode _ _).mpr ⟨.single "x" [.position 7, .name "host"], by cbv, ?_⟩⟩
    exact ⟨[.position 7, .name "host"], by cbv, rfl⟩

end Key
end BeanContainer
