/-
# Arguments that are texts with placeholders

An argument that is no lone placeholder and no `$key` stands for its own text, expanded. The expanded
text is bound as the default of a property in an empty store, and as such it is expanded once more. In
an empty store each placeholder gives way to a part of itself or to nothing at all, so the second
expansion changes every text that has one: the argument stands for what its text resolves to exactly
when no placeholder is left in that.

Key definitions: `Text.IsOwn`, `Template.span`, `Template.isFlat`, `Template.Undollared`.
Key theorems: `Store.resolve_empty_iff`, `Store.expand_undollared`, `Store.bindExpression_text`,
`Store.bindExpression_twice`.
-/
import BeanContainer.Proofs.Binding.Scalar
import BeanContainer.Proofs.Store.Expansion
import BeanContainer.Proofs.Template

namespace BeanContainer

/-- As an argument the text is no lone placeholder, and no dollar sign with a key behind it, be that
the empty key. -/
structure Text.IsOwn (cs : List Char) : Prop where
  placeholder : ∀ inside body, cs = '$' :: '{' :: inside →
    Template.splitBody 0 inside ≠ some (body, [])
  key : ∀ key, cs = '$' :: key → ∃ inside, key = '{' :: inside

namespace Template

/-- The number of characters that a template takes at least; a placeholder takes more than its
default. -/
def span : Template → ℕ
  | done => 0
  | literal text rest => text.length + span rest
  | required _ rest => 1 + span rest
  | defaulted _ _ default rest => 1 + span default + span rest
  | unclosed => 1

/-- Whether the template has no placeholder. -/
def isFlat : Template → Bool
  | done => true
  | literal _ rest => isFlat rest
  | required .. | defaulted .. | unclosed => false

/-- Text that stands for itself has no dollar sign, in defaults neither. -/
def Undollared : Template → Prop
  | done => True
  | literal text rest => '$' ∉ text.toList ∧ Undollared rest
  | required _ rest => Undollared rest
  | defaulted _ _ default rest => Undollared default ∧ Undollared rest
  | unclosed => True

theorem length_splitOpening {cs before inside : List Char}
    (h : splitOpening cs = (before, some inside)) : before.length + inside.length < cs.length := by
  fun_induction splitOpening cs generalizing before inside with
  | case1 => cases h
  | case2 cs =>
    cases h
    simp
  | case3 c cs _ before' behind' hs ih =>
    cases h
    have hl := ih hs
    simp only [List.length_cons]
    omega

theorem plain_of_splitOpening {cs before : List Char} (h : splitOpening cs = (before, none)) :
    before = cs ∧ Plain cs := by
  fun_induction splitOpening cs generalizing before with
  | case1 =>
    cases h
    exact ⟨rfl, by simp [Plain]⟩
  | case2 => cases h
  | case3 c cs hne before' behind' hs ih =>
    cases h
    obtain ⟨rfl, hp⟩ := ih hs
    refine ⟨rfl, fun hi => ?_⟩
    rcases List.infix_cons_iff.mp hi with hpre | hi
    · obtain ⟨hc, hpre⟩ := List.cons_prefix_cons.mp hpre
      obtain ⟨rest, rfl⟩ := hpre
      exact hne rest hc.symm rfl
    · exact hp hi

theorem span_prepend (text : List Char) (rest : Template) :
    (prepend text rest).span = text.length + rest.span := by
  unfold prepend
  split
  · next he => simp [List.isEmpty_iff.mp he]
  · simp [span]

theorem isFlat_prepend (text : List Char) (rest : Template) :
    (prepend text rest).isFlat = rest.isFlat := by
  unfold prepend
  split <;> rfl

/-- A template takes no more than the characters that it is read from. -/
theorem span_ofChars (cs : List Char) : (ofChars cs).span ≤ cs.length := by
  fun_induction ofChars cs with
  | case1 cs before opened =>
    rw [span_prepend, (plain_of_splitOpening opened).1]
    exact Nat.le_refl _
  | case2 cs before inside opened ihrequired ihdefault ihbehind =>
    have hl := length_splitOpening opened
    rw [span_prepend]
    split
    · show before.length + 1 ≤ _
      omega
    · next body behind closed =>
      have hbody := splitBody_length closed
      dsimp only
      split
      · next key split =>
        have hrest := ihrequired body behind closed
        show before.length + (1 + (ofChars behind).span) ≤ _
        omega
      · next key default split =>
        have hinner := splitDefault_length split
        have hdefault := ihdefault body behind closed key default split
        have hrest := ihbehind body behind closed key default split
        show before.length + (1 + (ofChars default).span + (ofChars behind).span) ≤ _
        omega

/-- A template without placeholders is read from plain text alone. -/
theorem plain_of_isFlat {cs : List Char} (h : (ofChars cs).isFlat = true) : Plain cs := by
  unfold ofChars at h
  split at h
  · next before opened => exact (plain_of_splitOpening opened).2
  · rw [isFlat_prepend] at h
    split at h
    · cases h
    · dsimp only at h
      split at h <;> cases h

theorem length_unless_plain {text : String} {n : ℕ}
    (h : n ≤ (ofText text).span ∧ ((ofText text).isFlat = false → n < (ofText text).span)) :
    n ≤ text.length ∧ (¬ Plain text.toList → n < text.length) := by
  have hspan : (ofText text).span ≤ text.length := String.length_toList ▸ span_ofChars text.toList
  refine ⟨h.1.trans hspan, fun hp => Nat.lt_of_lt_of_le (h.2 ?_) hspan⟩
  cases hf : (ofText text).isFlat with
  | false => rfl
  | true => exact absurd (plain_of_isFlat hf) hp

end Template

namespace Store

variable {store : Store} {chain : List String} {whole text : String} {template : Template}

theorem node?_empty (key : String) : empty.node? key = none := by
  unfold node?
  split
  · exact Option.bind_eq_none_iff.mpr fun path _ => rfl
  · rfl

theorem ok_of_bind {α β : Type} {first : Except Fault α} {next : α → Except Fault β} {b : β}
    (h : first >>= next = .ok b) : ∃ a, first = .ok a ∧ next a = .ok b := by
  rcases first with fault | a
  · cases h
  · exact ⟨a, rfl, h⟩

theorem append_ok_inv {first second : Except Fault String} {out : String}
    (h : (do let value ← first; let behind ← second; pure (value ++ behind)) = .ok out) :
    ∃ value behind, first = .ok value ∧ second = .ok behind ∧ out = value ++ behind := by
  obtain ⟨value, hv, h⟩ := ok_of_bind h
  obtain ⟨behind, hb, h⟩ := ok_of_bind h
  cases h
  exact ⟨value, behind, hv, hb, rfl⟩

/-- What holds of the parts of an expanded text and is kept where they are joined holds of the whole
text. -/
theorem expand_induct {P : Template → String → Prop} (done : P .done "")
    (literal : ∀ text rest behind, P rest behind → P (.literal text rest) (text ++ behind))
    (required : ∀ key rest text value behind, store.node? key = some (.value text) →
      P (.ofText text) value → P rest behind → P (.required key rest) (value ++ behind))
    (stored : ∀ key text' default rest text value behind, store.node? key = some (.value text) →
      P (.ofText text) value → P rest behind →
      P (.defaulted key text' default rest) (value ++ behind))
    (absent : ∀ key text default rest value behind, P default value → P rest behind →
      P (.defaulted key text default rest) (value ++ behind))
    (known : chain ≠ [] → ∀ key ∈ template.keys, key ∈ store.mentions) {out : String}
    (h : store.expand chain whole template known = .ok out) : P template out := by
  fun_induction Store.expand store chain whole template known generalizing out with
  | case1 =>
    cases h
    exact done
  | case2 | case4 | case5 | case7 => cases h
  | case3 chain whole text rest _ _ ih =>
    obtain ⟨behind, hb, h⟩ := ok_of_bind h
    cases h
    exact literal text rest behind (ih hb)
  | case6 chain whole key rest _ text found _ _ ihvalue ihrest =>
    obtain ⟨value, behind, hv, hb, rfl⟩ := append_ok_inv h
    exact required key rest text value behind (stored?_some found).2 (ihvalue hv) (ihrest hb)
  | case8 chain whole key text default rest _ found _ ihvalue ihrest =>
    obtain ⟨value, behind, hv, hb, rfl⟩ := append_ok_inv h
    exact absent key text default rest value behind (ihvalue hv) (ihrest hb)
  | case9 chain whole key text' default rest _ text found _ _ ihvalue ihrest =>
    obtain ⟨value, behind, hv, hb, rfl⟩ := append_ok_inv h
    exact stored key text' default rest text value behind (stored?_some found).2 (ihvalue hv)
      (ihrest hb)

/-- In an empty store no placeholder gives way to more than it took. -/
theorem length_expand_empty
    (known : chain ≠ [] → ∀ key ∈ template.keys, key ∈ empty.mentions) {out : String}
    (h : empty.expand chain whole template known = .ok out) :
    out.length ≤ template.span ∧ (template.isFlat = false → out.length < template.span) := by
  have hnone : ∀ {key text : String}, empty.node? key ≠ some (.value text) := fun h => by
    rw [node?_empty] at h
    cases h
  refine expand_induct (P := fun template out => out.length ≤ template.span ∧
    (template.isFlat = false → out.length < template.span)) ⟨Nat.le_refl _, nofun⟩ ?_
    (fun _ _ _ _ _ h => absurd h hnone) (fun _ _ _ _ _ _ _ h => absurd h hnone) ?_ known h
  · intro text rest behind hb
    simp only [Template.span, Template.isFlat, String.length_append]
    exact ⟨by omega, fun hf => by have := hb.2 hf; omega⟩
  · intro key text default rest value behind hv hb
    simp only [Template.span, String.length_append]
    omega

/-- In an empty store those texts stand for themselves that have no placeholder, and no other. -/
theorem resolve_empty_iff {text : String} :
    empty.resolve text = .ok text ↔ Template.Plain text.toList := by
  refine ⟨fun h => ?_, empty.resolve_eq_self⟩
  by_contra hp
  have hl := length_expand_empty _ h
  exact Nat.lt_irrefl _ ((Template.length_unless_plain hl).2 hp)

/-- A text without a dollar sign outside of placeholders stays without one, if stored texts are
so. -/
theorem expand_undollared (hs : ∀ key text, store.node? key = some (.value text) →
      (Template.ofText text).Undollared)
    (known : chain ≠ [] → ∀ key ∈ template.keys, key ∈ store.mentions) {out : String}
    (h : store.expand chain whole template known = .ok out) (ht : template.Undollared) :
    '$' ∉ out.toList := by
  refine expand_induct (P := fun template out => template.Undollared → '$' ∉ out.toList)
    (fun _ => by simp) ?_ ?_ ?_ ?_ known h ht
  · intro text rest behind hb ht
    rw [String.toList_append, List.mem_append, not_or]
    exact ⟨ht.1, hb ht.2⟩
  · intro key rest text value behind hn hv hb ht
    rw [String.toList_append, List.mem_append, not_or]
    exact ⟨hv (hs key text hn), hb ht⟩
  · intro key text' default rest text value behind hn hv hb ht
    rw [String.toList_append, List.mem_append, not_or]
    exact ⟨hv (hs key text hn), hb ht.2⟩
  · intro key text default rest value behind hv hb ht
    rw [String.toList_append, List.mem_append, not_or]
    exact ⟨hv ht.1, hb ht.2⟩

theorem bindTo_default (text path : String) :
    empty.bindTo ⟨"value", some text, none, path⟩ (.scalar .text) =
      (empty.resolve text).map Data.text := by
  rw [bindTo_text rfl, requiredValue_of_default _ (node?_empty _) rfl]

/-- A text that is an argument of its own is expanded and bound as a default. -/
theorem bindExpression_own (h : Text.IsOwn (Text.trimChars text.toList)) (schema : Schema) :
    store.bindExpression text schema =
      store.resolve (Text.trim text) >>= fun expanded =>
        empty.bindTo ⟨"value", some expanded, none, Text.trim text⟩ schema := by
  unfold bindExpression
  dsimp only
  split
  · next inside he =>
    split
    · next body hb => exact absurd hb (h.placeholder inside body he)
    · rfl
  · next key hne he =>
    obtain ⟨inside, rfl⟩ := h.key key he
    exact absurd rfl (hne inside)
  · rfl

/-- **What an argument with placeholders stands for.** A text that is no lone placeholder and no
`$key` stands for its expansion, expanded once more in an empty store. That is what the text resolves
to, be it a text or a fault, exactly when the expansion leaves no placeholder; and it leaves none
where neither the text nor a stored one has a dollar sign outside of placeholders. -/
theorem bindExpression_text (h : Text.IsOwn (Text.trimChars text.toList)) :
    store.bindExpression text (.scalar .text) =
      ((store.resolve (Text.trim text)).bind empty.resolve).map Data.text ∧
    (store.bindExpression text (.scalar .text) =
        (store.resolve (Text.trim text)).map Data.text ↔
      ∀ expanded, store.resolve (Text.trim text) = .ok expanded →
        Template.Plain expanded.toList) ∧
    ((Template.ofText (Text.trim text)).Undollared →
      (∀ key stored, store.node? key = some (.value stored) →
        (Template.ofText stored).Undollared) →
      store.bindExpression text (.scalar .text) =
        (store.resolve (Text.trim text)).map Data.text) := by
  have htwice : store.bindExpression text (.scalar .text) =
      ((store.resolve (Text.trim text)).bind empty.resolve).map Data.text := by
    rw [bindExpression_own h]
    rcases store.resolve (Text.trim text) with fault | expanded
    · rfl
    · exact bindTo_default expanded _
  have honce : store.bindExpression text (.scalar .text) =
        (store.resolve (Text.trim text)).map Data.text ↔
      ∀ expanded, store.resolve (Text.trim text) = .ok expanded →
        Template.Plain expanded.toList := by
    rw [htwice]
    rcases store.resolve (Text.trim text) with fault | expanded
    · exact ⟨fun _ => nofun, fun _ => rfl⟩
    · have hsame : (empty.resolve expanded).map Data.text = .ok (.text expanded) ↔
          empty.resolve expanded = .ok expanded := map_eq_ok_iff fun _ _ => Data.text.inj
      refine (hsame.trans resolve_empty_iff).trans ⟨?_, fun hp => hp expanded rfl⟩
      rintro hp _ ⟨⟩
      exact hp
  refine ⟨htwice, honce, fun ht hs => honce.mpr fun expanded he => ?_⟩
  have hnone := expand_undollared hs _ he ht
  exact Template.plain_of_forall fun c hc hd => hnone (hd ▸ hc)

/-- The store in which `dollar` stands for a dollar sign. -/
def dollars : Store := ⟨some (.map [(.name "dollar", .value "$")])⟩

/-- A placeholder with more text behind it is no lone one. -/
theorem isOwn_of_split {cs body behind : List Char} {c : Char}
    (h : Template.splitBody 0 cs = some (body, c :: behind)) : Text.IsOwn ('$' :: '{' :: cs) where
  placeholder inside body he hb := by
    cases he
    rw [h] at hb
    cases hb
  key key he := by
    cases he
    exact ⟨cs, rfl⟩

/-- A property that gives a dollar sign, with a comma behind it. -/
theorem bindExpression_text_dollars :
    dollars.bindExpression " $\x7bdollar\x7d,$\x7bb:=c\x7d" (.scalar .text) = .ok (.text "$,c") := by
  have hown : Text.IsOwn (Text.trimChars " $\x7bdollar\x7d,$\x7bb:=c\x7d".toList) := by
    have hsplit : Template.splitBody 0 "dollar\x7d,$\x7bb:=c\x7d".toList =
        some ("dollar".toList, ",$\x7bb:=c\x7d".toList) := by decide
    have hchars : Text.trimChars " $\x7bdollar\x7d,$\x7bb:=c\x7d".toList =
        '$' :: '{' :: "dollar\x7d,$\x7bb:=c\x7d".toList := by decide
    rw [hchars]
    exact isOwn_of_split hsplit
  have hresolve : dollars.resolve (Text.trim " $\x7bdollar\x7d,$\x7bb:=c\x7d") = .ok "$,c" :=
    resolve_of_plain? (n := 10) (by cbv)
  refine Eq.trans ((bindExpression_text hown).2.1.mpr ?_) (by rw [hresolve]; rfl)
  rw [hresolve]
  rintro _ ⟨⟩
  unfold Template.Plain
  decide

/-- A dollar sign that a property gives opens a placeholder with what stands behind it, and the text
is expanded a second time. -/
theorem bindExpression_twice :
    dollars.resolve (Text.trim "$\x7bdollar\x7d\x7bb:=c\x7d") = .ok "$\x7bb:=c\x7d" ∧
    dollars.bindExpression "$\x7bdollar\x7d\x7bb:=c\x7d" (.scalar .text) = .ok (.text "c") := by
  have hown : Text.IsOwn (Text.trimChars "$\x7bdollar\x7d\x7bb:=c\x7d".toList) := by
    have hsplit : Template.splitBody 0 "dollar\x7d\x7bb:=c\x7d".toList =
        some ("dollar".toList, "\x7bb:=c\x7d".toList) := by decide
    have hchars : Text.trimChars "$\x7bdollar\x7d\x7bb:=c\x7d".toList =
        '$' :: '{' :: "dollar\x7d\x7bb:=c\x7d".toList := by decide
    rw [hchars]
    exact isOwn_of_split hsplit
  have honce : dollars.resolve (Text.trim "$\x7bdollar\x7d\x7bb:=c\x7d") = .ok "$\x7bb:=c\x7d" :=
    resolve_of_plain? (n := 10) (by cbv)
  have htwice : empty.resolve "$\x7bb:=c\x7d" = .ok "c" := resolve_of_plain? (n := 10) (by cbv)
  refine ⟨honce, ?_⟩
  rw [bindExpression_own hown, honce]
  exact (bindTo_default _ _).trans (congrArg (Except.map Data.text) htwice)

end Store
end BeanContainer
