/-
# A placeholder that stands alone

A text that is one placeholder can be resolved, bound as a tag and bound as an argument, and all three
come to the same. A tag is bound without its own key on the chain of keys, so a circle of references is
named from another key there; no circle is missed and none is found in addition.

Key definitions: `Template.lone?`, `Fault.Akin`, `Store.Agree`.
Key theorems: `Template.ofChars_lone`, `Store.follows_placeholder`, `Store.bind_placeholder`.
-/
import BeanContainer.Proofs.Binding.Scalar
import BeanContainer.Proofs.Store.Expansion
import BeanContainer.Proofs.Template.Scan

namespace BeanContainer

/-! ### The text -/

namespace Template

variable {cs inside body behind : List Char} {key : String} {default : Option String}

/-- The key, without the blanks around it, and the default of a text that is one placeholder: it opens
with the text and is closed by the last character. -/
def lone? : List Char → Option (String × Option String)
  | '$' :: '{' :: inside =>
    match splitBody 0 inside with
    | some (body, []) =>
      let (key, default) := splitDefault 0 body
      some (String.ofList (Text.trimChars key), default.map String.ofList)
    | _ => none
  | _ => none

theorem lone?_eq_some (h : lone? cs = some (key, default)) : ∃ inside body,
    cs = '$' :: '{' :: inside ∧ splitBody 0 inside = some (body, []) ∧
      key = String.ofList (Text.trimChars (splitDefault 0 body).1) ∧
      default = (splitDefault 0 body).2.map String.ofList := by
  unfold lone? at h
  split at h
  · next inside =>
    split at h
    · next body hb =>
      cases h
      exact ⟨inside, body, rfl, hb, rfl, rfl⟩
    · cases h
  · cases h

theorem trimChars_lone (h : lone? cs = some (key, default)) : Text.trimChars cs = cs := by
  obtain ⟨inside, body, rfl, hb, -⟩ := lone?_eq_some h
  rw [eq_of_splitBody hb]
  refine Text.trimChars_eq_self ?_ ?_
  · rintro c ⟨⟩
    decide
  · rw [← List.cons_append, ← List.cons_append, List.getLast?_concat]
    rintro c ⟨⟩
    decide

/-- One placeholder with this key and default, and nothing behind it. -/
def ofParts (key : String) : Option String → Template
  | none => required key done
  | some text => defaulted key text (ofText text) done

theorem ofChars_lone (h : lone? cs = some (key, default)) : ofChars cs = ofParts key default := by
  obtain ⟨inside, body, rfl, hb, rfl, rfl⟩ := lone?_eq_some h
  have hopen : splitOpening ('$' :: '{' :: inside) = ([], some inside) := rfl
  have hdone : Scans [] done := .plain (rfl : splitOpening [] = ([], none))
  rcases hs : splitDefault 0 body with ⟨name, _ | text⟩
  · rw [ofChars_of_scans (.required hopen hb hs hdone), trimmed_prepend]
    simp [prepend, trimmed, ofParts, Text.trim]
  · obtain ⟨template, htemplate, he⟩ := exists_scans text
    rw [ofChars_of_scans (.defaulted hopen hb hs htemplate hdone), trimmed_prepend]
    simp [prepend, trimmed, ofParts, Text.trim, ofText, he]

end Template

theorem Target.ofTag_lone {text key : String} {default : Option String}
    (h : Template.lone? text.toList = some (key, default)) :
    ofTag text = .ok ⟨key, default, none, ""⟩ := by
  have htrim := Template.trimChars_lone h
  obtain ⟨inside, body, hcs, hb, rfl, rfl⟩ := Template.lone?_eq_some h
  have hbody : tagBody? text.toList = some body := by
    unfold tagBody?
    rw [htrim, hcs, Template.eq_of_splitBody hb]
    simp
  unfold ofTag parseTag
  rw [hbody]
  rfl

/-! ### What stands at its key -/

/-- Faults of one form, of resolving a placeholder and of binding it: a circle of references may be
named from different keys, and a branch at the key is reported in different words. -/
inductive Fault.Akin (key : String) : Fault → Fault → Prop
  | same (fault : Fault) : Akin key fault fault
  | circular (keys keys' : List String) : Akin key (circularReference keys) (circularReference keys')
  | branch (kind : NodeKind) :
      Akin key (binding key (.notText kind)) (binding key (.wrongKind key kind))

namespace Store

variable {store : Store} {text key : String} {default : Option String} {segments : List Segment}

/-- Resolving and binding agree: both give the same text, or faults of one form. -/
inductive Agree (key : String) : Except Fault String → Except Fault Data → Prop
  | ok (text : String) : Agree key (.ok text) (.ok (.text text))
  | error {fault fault' : Fault} (h : fault.Akin key fault') : Agree key (.error fault) (.error fault')

theorem Agree.refl (key : String) (result : Except Fault String) :
    Agree key result (result.map Data.text) := by
  cases result with
  | error fault => exact .error (.same fault)
  | ok text => exact .ok text

/-- It doesn't matter from which key a circle of references is named. -/
theorem Agree.circular {keys : List String} {bound : Except Fault Data}
    (h : Agree key (.error (.circularReference keys)) bound) (keys' : List String) :
    Agree key (.error (.circularReference keys')) bound := by
  cases h with
  | error h =>
    cases h with
    | same => exact .error (.circular keys' keys)
    | circular => exact .error (.circular keys' _)

theorem placed?_of_split (hne : key ≠ "") (hk : Key.split key = .ok segments) (whole : String) :
    store.placed? whole key =
      match store.node? key with
      | none => .ok none
      | some (.value text) => .ok (some text)
      | some node => .error (.binding key (.notText node.kind)) := by
  unfold placed?
  rcases store.node? key with _ | node
  · simp [hne, hk]
  · cases node <;> simp [hne, hk]

theorem opens_ofParts (whole key : String) (default : Option String) :
    store.Opens whole (.ofParts key default) key .done := by
  rcases default with _ | text
  · exact opens_required key .done
  · exact opens_defaulted key text (.ofText text) .done

/-- The plain expansion of a placeholder follows a result that agrees with the text of the target that
the placeholder names. -/
theorem follows_placeholder (store : Store) (hne : key ≠ "") (hk : Key.split key = .ok segments)
    (whole : String) (default : Option String) :
    ∃ result, store.Follows [] whole (.ofParts key default) result ∧
      Agree key result ((store.requiredValue ⟨key, default, none, ""⟩).map Data.text) := by
  have hopens : store.Opens whole (.ofParts key default) key .done := opens_ofParts whole key default
  have hp : store.placed? whole key = _ := placed?_of_split hne hk whole
  have hshown : Target.shown ⟨key, default, none, ""⟩ = key := by simp [Target.shown]
  rcases hn : store.node? key with _ | node
  · rw [hn] at hp
    rcases default with _ | text
    · refine ⟨.error (.missingProperty key), .stops (fun cycle => nofun)
        (.of_step fun written more => ?_), ?_⟩
      · exact (step_required ..).trans (by rw [hp])
      · rw [requiredValue_of_none ⟨key, none, none, ""⟩ hn rfl]
        exact .refl key _
    · refine ⟨store.resolve text, (resolve_follows store text).instead fun written more => ?_, ?_⟩
      · exact (step_defaulted ..).trans (by rw [hp])
      · rw [requiredValue_of_default ⟨key, some text, none, ""⟩ hn rfl]
        exact .refl key _
  · rw [hn] at hp
    cases node with
    | value text =>
      refine ⟨store.resolve text, (resolve_follows store text).instead (hopens.enters hp), ?_⟩
      rw [requiredValue_of_value ⟨key, default, none, ""⟩ hn]
      exact .refl key _
    | map | array =>
      refine ⟨_, .stops (fun cycle => ?_) (hopens.stops hp), ?_⟩
      · nofun
      · rw [requiredValue_of_branch ⟨key, default, none, ""⟩ hn nofun, hshown]
        exact .error (.branch _)

theorem bindExpression_lone (h : Template.lone? text.toList = some (key, default)) (schema : Schema) :
    store.bindExpression text schema = store.bind text schema := by
  have htrim := Template.trimChars_lone h
  obtain ⟨inside, body, hcs, hb, -⟩ := Template.lone?_eq_some h
  unfold bindExpression
  dsimp only
  rw [htrim, String.ofList_toList, hcs]
  simp only [hb]

/-- **Resolving, binding and binding as an argument agree** on a text that is one placeholder with a key
that is not empty: all give the same text, or they fail in the same form. -/
theorem bind_placeholder (h : Template.lone? text.toList = some (key, default)) (hne : key ≠ "")
    (hk : Key.split key = .ok segments) :
    store.bindExpression text (.scalar .text) = store.bind text (.scalar .text) ∧
      Agree key (store.resolve text) (store.bind text (.scalar .text)) := by
  refine ⟨bindExpression_lone h _, ?_⟩
  have hbind : store.bind text (.scalar .text) =
      (store.requiredValue ⟨key, default, none, ""⟩).map Data.text := by
    unfold bind
    rw [Target.ofTag_lone h]
    exact bindTo_text rfl
  have htemplate : Template.ofText text = .ofParts key default := Template.ofChars_lone h
  obtain ⟨result, hf, ha⟩ := follows_placeholder store hne hk text default
  rw [← htemplate] at hf
  rw [hbind]
  rcases (resolve_follows store text).unique hf with he | ⟨keys, keys', he, rfl⟩
  · rw [he]
    exact ha
  · rw [he]
    exact ha.circular keys

/-- Two properties that refer to each other. -/
def couple : Store :=
  ⟨some (.map [(.name "a", .value "$\x7bb\x7d"), (.name "b", .value "<$\x7ba\x7d>")])⟩

/-- The circle is found on both ways, though it is not named from the same key. -/
theorem bind_placeholder_couple :
    Agree "a" (couple.resolve "$\x7b a :=$\x7bc:=d\x7d\x7d")
      (couple.bind "$\x7b a :=$\x7bc:=d\x7d\x7d" (.scalar .text)) := by
  have hlone : Template.lone? "$\x7b a :=$\x7bc:=d\x7d\x7d".toList =
      some ("a", some "$\x7bc:=d\x7d") := by cbv
  have hkey : Key.split "a" = .ok [.name "a"] := by cbv
  exact (bind_placeholder hlone (by decide) hkey).2

end Store
end BeanContainer
