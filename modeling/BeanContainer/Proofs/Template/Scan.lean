/-
# What the scans find in a printed template

A template is printed with nothing around its pieces but the `${`, the `:=` and the `}` of its
placeholders. If its keys and literals leave these alone, a `}` inside a default always closes an inner
placeholder and every key ends at its own `:=`, so the scans find the template again, level by level,
with the keys as they are written.

Key definitions: `Template.Scans`, `Template.IsKey`, `Template.Canonical`.
Key theorems: `Template.Scans.unique`, `Template.ofChars_of_scans`, `Template.scans_print_iff`.
-/
import BeanContainer.Proofs.Template.Nesting

namespace BeanContainer
namespace Template

variable {strays marks inside : Bool} {text cs key : List Char} {template other rest : Template}

/-! ### The scans -/

/-- The three scans take the characters apart into the template: the first finds a `${`, the second the
`}` that closes it, the third the `:=` between, and behind both the `:=` and the `}` it starts again. -/
inductive Scans : List Char → Template → Prop
  | plain {cs before : List Char} : splitOpening cs = (before, none) → Scans cs (prepend before done)
  | unclosed {cs before inner : List Char} : splitOpening cs = (before, some inner) →
      splitBody 0 inner = none → Scans cs (prepend before unclosed)
  | required {cs before inner body behind key : List Char} {rest : Template} :
      splitOpening cs = (before, some inner) → splitBody 0 inner = some (body, behind) →
      splitDefault 0 body = (key, none) → Scans behind rest →
      Scans cs (prepend before (required (String.ofList key) rest))
  | defaulted {cs before inner body behind key text : List Char} {default rest : Template} :
      splitOpening cs = (before, some inner) → splitBody 0 inner = some (body, behind) →
      splitDefault 0 body = (key, some text) → Scans text default → Scans behind rest →
      Scans cs (prepend before (defaulted (String.ofList key) (String.ofList text) default rest))

theorem Scans.unique (h : Scans cs template) (h' : Scans cs other) : template = other := by
  induction h generalizing other with
  | plain | unclosed => cases h' <;> simp_all
  | required ho hb hd _ ih =>
    cases h' with
    | required ho' hb' hd' hrest =>
      cases ho.symm.trans ho'
      cases hb.symm.trans hb'
      cases hd.symm.trans hd'
      rw [ih hrest]
    | _ => simp_all
  | defaulted ho hb hd _ _ ihdefault ih =>
    cases h' with
    | defaulted ho' hb' hd' hdefault hrest =>
      cases ho.symm.trans ho'
      cases hb.symm.trans hb'
      cases hd.symm.trans hd'
      rw [ihdefault hdefault, ih hrest]
    | _ => simp_all

/-- The template with its keys as the reader keeps them, without the blanks around them. -/
def trimmed : Template → Template
  | done => done
  | literal text rest => literal text rest.trimmed
  | required key rest => required (Text.trim key) rest.trimmed
  | defaulted key text default rest =>
    defaulted (Text.trim key) text default.trimmed rest.trimmed
  | unclosed => unclosed

theorem trimmed_prepend (text : List Char) (rest : Template) :
    (prepend text rest).trimmed = prepend text rest.trimmed := by
  unfold prepend
  split <;> rfl

/-- Every text is scanned, and the reader does it. -/
theorem exists_scans (cs : List Char) : ∃ template, Scans cs template ∧
    ofChars cs = template.trimmed := by
  fun_induction ofChars cs with
  | case1 cs before opened => exact ⟨_, .plain opened, (trimmed_prepend before done).symm⟩
  | case2 cs before inner opened ihrequired ihdefault ihbehind =>
    split
    · next closed => exact ⟨_, .unclosed opened closed, (trimmed_prepend before unclosed).symm⟩
    · next body behind closed =>
      dsimp only
      split
      · next key split =>
        obtain ⟨rest, hrest, he⟩ := ihrequired body behind closed
        refine ⟨_, .required opened closed split hrest, ?_⟩
        rw [trimmed_prepend, trimmed, Text.trim, String.toList_ofList, he]
      · next key text split =>
        obtain ⟨default, hdefault, hd⟩ := ihdefault body behind closed key text split
        obtain ⟨rest, hrest, he⟩ := ihbehind body behind closed key text split
        refine ⟨_, .defaulted opened closed split hdefault hrest, ?_⟩
        rw [trimmed_prepend, trimmed, Text.trim, String.toList_ofList, he, hd]

theorem ofChars_of_scans (h : Scans cs template) : ofChars cs = template.trimmed := by
  obtain ⟨other, hs, he⟩ := exists_scans cs
  rw [he, h.unique hs]

/-! ### Templates to print -/

/-- Characters that can be printed as a key: none of them opens or closes a placeholder, and none starts
a default. -/
structure IsKey (cs : List Char) : Prop where
  plain : Plain cs
  unbraced : '}' ∉ cs
  unmarked : ¬ [':', '='] <:+: cs

instance : DecidablePred Plain := fun _ => instDecidableNot

instance : DecidablePred IsKey := fun cs =>
  decidable_of_iff (Plain cs ∧ '}' ∉ cs ∧ ¬ [':', '='] <:+: cs)
    ⟨fun h => ⟨h.1, h.2.1, h.2.2⟩, fun h => ⟨h.plain, h.unbraced, h.unmarked⟩⟩

/-- Templates of nonempty literals and of placeholders, all of them closed, with the printed default
for its text. No two literals stand side by side, and none has a `${`, or a `}` where it is `inside` of a
default. -/
inductive Canonical : (inside : Bool) → Template → Prop
  | done {inside : Bool} : Canonical inside done
  | literal {inside : Bool} {text : String} {rest : Template} : text ≠ "" → Plain text.toList →
      (inside = true → '}' ∉ text.toList) → (∀ text' rest', rest ≠ literal text' rest') →
      Canonical inside rest → Canonical inside (literal text rest)
  | required {inside : Bool} {key : String} {rest : Template} : IsKey key.toList →
      Canonical inside rest → Canonical inside (required key rest)
  | defaulted {inside : Bool} {key text : String} {default rest : Template} : IsKey key.toList →
      text = default.print → Canonical true default → Canonical inside rest →
      Canonical inside (defaulted key text default rest)

theorem print_literal (text : String) (rest : Template) :
    (literal text rest).print.toList = text.toList ++ rest.print.toList := by
  simp [print]

theorem print_required (key : String) (rest : Template) :
    (required key rest).print.toList = '$' :: '{' :: (key.toList ++ '}' :: rest.print.toList) := by
  simp [print]

theorem print_defaulted (key text : String) (default rest : Template) :
    (defaulted key text default rest).print.toList =
      '$' :: '{' :: ((key.toList ++ ':' :: '=' :: default.print.toList) ++ '}' :: rest.print.toList) := by
  simp [print]

/-- Only a literal can open with something else than a `${`. -/
theorem print_eq_of_ne_literal (h : Canonical inside template)
    (hne : ∀ text rest, template ≠ literal text rest) :
    template.print.toList = [] ∨ ∃ inner, template.print.toList = '$' :: '{' :: inner := by
  cases h with
  | done => exact .inl (by simp [print])
  | literal => exact absurd rfl (hne _ _)
  | required => exact .inr ⟨_, print_required _ _⟩
  | defaulted => exact .inr ⟨_, print_defaulted _ _ _ _⟩

/-! ### What is printed nests -/

/-- Characters that neither open nor close a placeholder nest. -/
theorem nests_of_plain (hp : Plain cs) (hc : '}' ∉ cs) (hm : marks = false → ¬ [':', '='] <:+: cs) :
    Nests strays marks cs := by
  induction cs with
  | nil => exact .nil
  | cons c cs ih =>
    rw [List.mem_cons, not_or] at hc
    have hrest := ih (fun hi => hp (List.infix_cons hi)) hc.2 fun hs hi => hm hs (List.infix_cons hi)
    refine .char (fun he => absurd he.symm hc.1) (fun hpre => hp hpre.isInfix) (fun hpre => ?_) hrest
    by_contra hs
    exact hm (Bool.not_eq_true marks ▸ hs) hpre.isInfix

theorem IsKey.nests (h : IsKey cs) : Nests strays marks cs :=
  nests_of_plain h.plain h.unbraced fun _ => h.unmarked

/-- A key and a default can be the body of a placeholder. -/
theorem IsKey.balanced (h : IsKey key) (hd : Balanced cs) : Balanced (key ++ ':' :: '=' :: cs) := by
  refine h.nests.append (.char nofun (by simp) (fun _ => rfl) ?_) (by simp) nofun
  exact .char nofun (by simp) (by simp) hd

theorem Canonical.balanced (h : Canonical inside template) (hi : inside = true) :
    Balanced template.print.toList := by
  induction h with
  | done =>
    rw [print]
    exact .nil
  | literal _ hp hc hne hrest ih =>
    have hliteral : Balanced _ := nests_of_plain hp (hc hi) nofun
    rw [print_literal]
    refine hliteral.append (ih hi) ?_ nofun
    rcases print_eq_of_ne_literal hrest hne with he | ⟨inner, he⟩ <;> simp [he]
  | required hkey _ ih =>
    rw [print_required]
    exact .placeholder hkey.nests (ih hi)
  | defaulted hkey _ _ _ ihdefault ih =>
    rw [print_defaulted]
    exact .placeholder (hkey.balanced (ihdefault rfl)) (ih hi)

/-! ### What is printed is found -/

theorem splitOpening_append (h : Plain text) (ho : cs.head? ≠ some '{') : splitOpening (text ++ cs) =
    (text ++ (splitOpening cs).1, (splitOpening cs).2) := by
  induction text with
  | nil => rfl
  | cons c text ih =>
    have hopen := not_pair_append (fun hpre => h hpre.isInfix) ho
    rw [List.cons_append, splitOpening, ih fun hi => h (List.infix_cons hi)]
    · rfl
    · rintro rest rfl he
      exact hopen (by simp [he])

/-- The scans find a literal in front of what they find behind it. -/
theorem Scans.literal {text : String} (hs : Scans cs rest) (hp : Plain text.toList) (hne : text ≠ "")
    (hcs : cs = [] ∨ ∃ inner, cs = '$' :: '{' :: inner) :
    Scans (text.toList ++ cs) (literal text rest) := by
  have hopen : (splitOpening cs).1 = [] ∧
      splitOpening (text.toList ++ cs) = (text.toList, (splitOpening cs).2) := by
    rcases hcs with rfl | ⟨inner, rfl⟩
    · exact ⟨rfl, by rw [splitOpening_append hp (by simp)]; simp [splitOpening]⟩
    · exact ⟨rfl, by rw [splitOpening_append hp (by simp)]; simp [splitOpening]⟩
  have hprepend : prepend text.toList rest = Template.literal text rest := by
    rw [prepend, if_neg (by simpa using hne), String.ofList_toList]
  rw [← hprepend]
  cases hs with
  | plain ho =>
    rw [ho] at hopen
    obtain ⟨rfl, ho'⟩ := hopen
    exact .plain ho'
  | unclosed ho hb =>
    rw [ho] at hopen
    obtain ⟨rfl, ho'⟩ := hopen
    exact .unclosed ho' hb
  | required ho hb hd hrest =>
    rw [ho] at hopen
    obtain ⟨rfl, ho'⟩ := hopen
    exact .required ho' hb hd hrest
  | defaulted ho hb hd hdefault hrest =>
    rw [ho] at hopen
    obtain ⟨rfl, ho'⟩ := hopen
    exact .defaulted ho' hb hd hdefault hrest

/-- They find a placeholder without a default, -/
theorem Scans.keyed {key : String} (hs : Scans cs rest) (hkey : IsKey key.toList) :
    Scans ('$' :: '{' :: (key.toList ++ '}' :: cs)) (Template.required key rest) := by
  have hbody : splitBody 0 (key.toList ++ '}' :: cs) = some (key.toList, cs) :=
    splitBody_eq_some_iff.mpr ⟨rfl, hkey.nests⟩
  have hdefault : splitDefault 0 key.toList = (key.toList, none) :=
    splitDefault_eq_iff.mpr (.whole fun front default he =>
      absurd ⟨front, default, by simp [he]⟩ hkey.unmarked)
  have hscans := Scans.required (rfl : splitOpening ('$' :: '{' :: _) = ([], some _)) hbody hdefault hs
  rwa [String.ofList_toList] at hscans

/-- and one with a default in which they find what was printed. -/
theorem Scans.marked {key : String} {default : Template} (hs : Scans cs rest) (hkey : IsKey key.toList)
    (hbalanced : Balanced default.print.toList) (hdefault : Scans default.print.toList default) :
    Scans ('$' :: '{' :: ((key.toList ++ ':' :: '=' :: default.print.toList) ++ '}' :: cs))
      (Template.defaulted key default.print default rest) := by
  have hbody := splitBody_eq_some_iff.mpr
    ⟨(rfl : _ = _ ++ '}' :: cs), hkey.balanced hbalanced⟩
  have hscans := Scans.defaulted (rfl : splitOpening ('$' :: '{' :: _) = ([], some _)) hbody
    (splitDefault_of_unmarked hkey.nests _) hdefault hs
  rwa [String.ofList_toList, String.ofList_toList] at hscans

theorem Canonical.scans (h : Canonical inside template) :
    Scans template.print.toList template := by
  induction h with
  | done => exact .plain (rfl : splitOpening [] = ([], none))
  | literal hne hp _ hnext hrest ih =>
    rw [print_literal]
    exact ih.literal hp hne (print_eq_of_ne_literal hrest hnext)
  | required hkey _ ih =>
    rw [print_required]
    exact ih.keyed hkey
  | defaulted hkey htext hdefault _ ihdefault ih =>
    rw [htext, print_defaulted]
    exact ih.marked hkey (hdefault.balanced rfl) ihdefault

/-- **The scans find what was printed.** In the text of a template of literals and closed placeholders
they find this template and no other: at every level the same pieces, keys and defaults. The reader
takes the blanks around the keys away. -/
theorem scans_print_iff (h : Canonical false template) :
    (∀ other, Scans template.print.toList other ↔ other = template) ∧
      ofText template.print = template.trimmed := by
  refine ⟨fun other => ⟨fun hs => hs.unique h.scans, ?_⟩, ofChars_of_scans h.scans⟩
  rintro rfl
  exact h.scans

/-- A literal with a `$` at its end, a key with a `:` at its end, a default with a `:=` in front of an
inner placeholder, and a `}` behind all of them. -/
def crossed : Template :=
  literal "cost$" (defaulted "k:" "x:=$\x7b $:=\x7d$"
    (literal "x:=" (defaulted " $" "" done (literal "$" done))) (literal "\x7d:=" done))

theorem scans_print_crossed : crossed.print = "cost$$\x7bk::=x:=$\x7b $:=\x7d$\x7d\x7d:=" ∧
    (∀ other, Scans crossed.print.toList other ↔ other = crossed) ∧
      ofText crossed.print = literal "cost$" (defaulted "k:" "x:=$\x7b $:=\x7d$"
        (literal "x:=" (defaulted "$" "" done (literal "$" done))) (literal "\x7d:=" done)) := by
  have hcanonical : Canonical false crossed := by
    refine .literal (by decide) (by decide +kernel) nofun nofun ?_
    refine .defaulted (by decide +kernel) (by decide +kernel) ?_ ?_
    · refine .literal (by decide) (by decide +kernel) (fun _ => by decide +kernel) nofun ?_
      refine .defaulted (by decide +kernel) (by decide +kernel) .done ?_
      exact .literal (by decide) (by decide +kernel) (fun _ => by decide +kernel) nofun .done
    · exact .literal (by decide) (by decide +kernel) nofun nofun .done
  have htrimmed : crossed.trimmed = literal "cost$" (defaulted "k:" "x:=$\x7b $:=\x7d$"
      (literal "x:=" (defaulted "$" "" done (literal "$" done))) (literal "\x7d:=" done)) := by
    decide +kernel
  exact ⟨by decide +kernel, (scans_print_iff hcanonical).1,
    htrimmed ▸ (scans_print_iff hcanonical).2⟩

end Template
end BeanContainer
