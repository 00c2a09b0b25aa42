/-
# Optional values

An optional value is bound like its content, and there is none of it where nothing stands at the key
and the target has no default. A validator looks at the content; where there is none it has nothing to
look at and refuses.

Key definitions: `Target.absence`, `Store.optional`.
Key theorems: `Store.bindTo_option`, `Store.option_refused`.
-/
import BeanContainer.Proofs.Binding.Parts
import Mathlib

namespace BeanContainer

/-- What comes out of an optional binding when there is nothing to bind. -/
def Target.absence (target : Target) : Except Fault Data :=
  match target.validator with
  | none => .ok .absent
  | some source => do
    let _ ← Predicate.parse source
    .error (.binding target.shown .notScalar)

/-- What an optional value is bound to at a target where its content is bound to `bound`. -/
def Store.optional (store : Store) (target : Target) (bound : Except Fault Data) :
    Except Fault Data :=
  if !store.has target.key && target.default.isNone then target.absence else bound.map .present

namespace Store

variable {store : Store} {target : Target}

theorem validate_absent (store : Store) (target : Target) :
    (do store.validate target .absent; return .absent) = target.absence := by
  unfold validate Target.absence
  rcases target.validator with _ | source
  · rfl
  · dsimp only
    rcases Predicate.parse source with fault | predicate <;> rfl

/-- A validator sees of an optional value what it sees of the content. -/
theorem validate_present (store : Store) (target : Target) (content : Data) :
    store.validate target (.present content) = store.validate target content := rfl

theorem bindTo_optional (store : Store) (target : Target) (content : Schema) :
    store.bindTo target (.option content) = store.optional target (store.bindTo target content) := by
  unfold bindTo optional
  rw [Schema.bind]
  split
  · exact validate_absent store target
  · rcases content.bind store target with fault | data
    · rfl
    · show Except.bind (store.validate target (.present data)) _ =
        Except.map _ (Except.bind (store.validate target data) _)
      rw [validate_present]
      rcases store.validate target data with fault | ⟨⟩ <;> rfl

/-- **Optional values.** An optional value is bound to what its content is bound to, value or fault,
and to nothing where there is no property and no default; with a validator that is refused. The same
holds of the fields of records, at the targets that their tags name. -/
theorem bindTo_option (store : Store) (target : Target) (content : Schema) :
    store.bindTo target (.option content) = store.optional target (store.bindTo target content) ∧
    ∀ (name tag : String) (validator : Option String) (rest : List (Field × Schema)),
      Schema.bindFields store target ((⟨name, some tag, validator⟩, .option content) :: rest) =
        (do
          let inner ← target.field name tag
          let guarded := { inner with validator }
          let data ← store.optional guarded (store.bindTo guarded content)
          return (name, data) :: (← Schema.bindFields store target rest)) := by
  refine ⟨bindTo_optional store target content, fun name tag validator rest => ?_⟩
  rw [Schema.bindFields_cons]
  simp only [bindTo_optional]

theorem readFloat64_dollar : readFloat64 "$" = .error .invalidFloat := by
  have hchars : "$".toList = ['$'] := rfl
  have htext : floatText? ['$'] = none := by cbv
  have hlower : ['$'].map Char.toLower = ['$'] := by decide
  simp [readFloat64, readBinary, hchars, htext, hlower]
  rfl

/-- The predicate of positive values. -/
def positive : Predicate where
  source := "$ > 0"
  tree := .node .group [.node (.binary .gt) [.node (.constant (.int 0)) [], .node (.read "$") []]]

theorem parse_positive : Predicate.parse "$ > 0" = .ok positive := by
  have hglyphs : Predicate.Glyph.scan .plain "$ > 0".toList =
      some [.word ['$'], .blank, .symbol '>', .blank, .word ['0']] := by cbv
  have hdollar : Predicate.Token.ofWord? ['$'] = none := by
    have hint : Predicate.Token.integer? ['$'] = none := by cbv
    have hbool : (readBool (String.ofList ['$'])).toOption = none := by cbv
    unfold Predicate.Token.ofWord?
    rw [hint, show String.ofList ['$'] = "$" from rfl, readFloat64_dollar]
    simp only [hbool]
    rfl
  have hzero : Predicate.Token.ofWord? ['0'] = some (.int 0) := by cbv
  have htokens : Predicate.Token.read "$ > 0" =
      some [.identifier "$", .binary .gt, .value (.int 0)] := by
    unfold Predicate.Token.read
    rw [hglyphs]
    simp [Predicate.Token.ofGlyphs, hdollar, hzero, Predicate.Token.doubled?,
      Predicate.Token.operator?]
  have htree : Predicate.Tree.ofTokens [.identifier "$", .binary .gt, .value (.int 0)] =
      some positive.tree := by cbv
  unfold Predicate.parse
  rw [htokens]
  simp only [Option.bind_some, htree]
  rfl

theorem holds_positive {lookup : String → Except Fault Scalar} {n : Int}
    (h : lookup "$" = .ok (.int n)) : positive.holds lookup = .ok (decide (0 < n)) := by
  have hnames : positive.tree.names = ["$"] := by cbv
  unfold Predicate.holds
  rw [hnames]
  simp only [Predicate.bindings, h]
  rfl

theorem evaluateWith_positive (store : Store) (n : Int) :
    store.evaluateWith (.int n) "$ > 0" = .ok (decide (0 < n)) := by
  unfold evaluateWith
  rw [parse_positive]
  show positive.holds (fun name => if name = "$" then .ok (.int n) else store.scalarAt name) = _
  exact holds_positive (if_pos rfl)

/-- A port that need not be there is refused by its validator when it is not there. -/
theorem option_refused :
    empty.has "port" = false ∧
    empty.bindTo ⟨"port", none, none, ""⟩ (.option (.scalar (.int .u16))) = .ok .absent ∧
    empty.bindTo ⟨"port", none, some "$ > 0", ""⟩ (.option (.scalar (.int .u16))) =
      .error (.binding "port" .notScalar) := by
  have hmissing : empty.has "port" = false := by cbv
  have hoptional : ∀ validator, empty.bindTo ⟨"port", none, validator, ""⟩
      (.option (.scalar (.int .u16))) = Target.absence ⟨"port", none, validator, ""⟩ := by
    intro validator
    rw [bindTo_optional, optional, hmissing]
    rfl
  refine ⟨hmissing, hoptional none, (hoptional _).trans ?_⟩
  unfold Target.absence
  dsimp only
  rw [parse_positive]
  rfl

end Store
end BeanContainer
