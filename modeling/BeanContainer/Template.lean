/-
# Templates

Texts with placeholders: `${key}` stands for the property at `key`, and `${key:=default}` for
the default when there is none, itself a text with placeholders.

Key definitions:
- `Template`, a text taken apart.
- `Template.splitOpening`, `Template.splitBody` and `Template.splitDefault`, the three scans that
  take it apart: up to a `${`, up to the `}` that closes it, up to a `:=` outside of inner
  placeholders.
- `Template.ofText`, the reader, and `Template.print`, the writer.
- `Template.keys`, the keys that the placeholders name.
-/
import BeanContainer.Text.Blank

namespace BeanContainer

/-- A text taken apart, from its front. -/
inductive Template where
  /-- The end of the text. -/
  | done
  /-- Text that stands for itself. -/
  | literal (text : String) (rest : Template)
  /-- A placeholder without a default. -/
  | required (key : String) (rest : Template)
  /-- A placeholder with a default, whose text is kept beside it. -/
  | defaulted (key : String) (text : String) (default : Template) (rest : Template)
  /-- A placeholder that is never closed, with everything behind it. -/
  | unclosed
  deriving DecidableEq, Repr, Inhabited

namespace Template

/-- The characters before the first `${`, and those behind it if there is one. -/
def splitOpening : List Char → List Char × Option (List Char)
  | [] => ([], none)
  | '$' :: '{' :: cs => ([], some cs)
  | c :: cs =>
    let (before, behind) := splitOpening cs
    (c :: before, behind)

/-- The characters before the `}` that closes a placeholder, and those behind it; `depth` counts
the inner placeholders that are open. -/
def splitBody : (depth : Nat) → List Char → Option (List Char × List Char)
  | _, [] => none
  | depth, '$' :: '{' :: cs =>
    (splitBody (depth + 1) cs).map fun (body, behind) => ('$' :: '{' :: body, behind)
  | 0, '}' :: cs => some ([], cs)
  | depth + 1, '}' :: cs =>
    (splitBody depth cs).map fun (body, behind) => ('}' :: body, behind)
  | depth, c :: cs =>
    (splitBody depth cs).map fun (body, behind) => (c :: body, behind)

/-- The characters before the first `:=` outside of inner placeholders, and those behind it if
there is one; `depth` counts the inner placeholders that are open. -/
def splitDefault : (depth : Nat) → List Char → List Char × Option (List Char)
  | _, [] => ([], none)
  | depth, '$' :: '{' :: cs =>
    let (key, default) := splitDefault (depth + 1) cs
    ('$' :: '{' :: key, default)
  | depth, '}' :: cs =>
    let (key, default) := splitDefault (depth - 1) cs
    ('}' :: key, default)
  | 0, ':' :: '=' :: cs => ([], some cs)
  | depth, c :: cs =>
    let (key, default) := splitDefault depth cs
    (c :: key, default)

theorem splitOpening_length {cs before behind : List Char}
    (split : splitOpening cs = (before, some behind)) : behind.length < cs.length := by
  fun_induction splitOpening cs generalizing before behind with
  | case1 => simp at split
  | case2 cs =>
    simp only [Prod.mk.injEq, Option.some.injEq] at split
    obtain ⟨-, rfl⟩ := split
    simp only [List.length_cons]
    omega
  | case3 c cs _ before' behind' eq ih =>
    simp only [Prod.mk.injEq] at split
    obtain ⟨-, rfl⟩ := split
    have := ih eq
    simp only [List.length_cons]
    omega

theorem splitBody_length {depth : Nat} {cs body behind : List Char}
    (split : splitBody depth cs = some (body, behind)) :
    body.length + behind.length < cs.length := by
  fun_induction splitBody depth cs generalizing body behind with
  | case1 => simp at split
  | case2 depth cs ih =>
    obtain ⟨⟨inner, rest⟩, eq, same⟩ := Option.map_eq_some_iff.1 split
    simp only [Prod.mk.injEq] at same
    obtain ⟨rfl, rfl⟩ := same
    have := ih eq
    simp only [List.length_cons]
    omega
  | case3 cs => simp_all
  | case4 depth cs ih =>
    obtain ⟨⟨inner, rest⟩, eq, same⟩ := Option.map_eq_some_iff.1 split
    simp only [Prod.mk.injEq] at same
    obtain ⟨rfl, rfl⟩ := same
    have := ih eq
    simp only [List.length_cons]
    omega
  | case5 depth c cs _ _ _ ih =>
    obtain ⟨⟨inner, rest⟩, eq, same⟩ := Option.map_eq_some_iff.1 split
    simp only [Prod.mk.injEq] at same
    obtain ⟨rfl, rfl⟩ := same
    have := ih eq
    simp only [List.length_cons]
    omega

theorem splitDefault_length {depth : Nat} {cs key default : List Char}
    (split : splitDefault depth cs = (key, some default)) : default.length < cs.length := by
  fun_induction splitDefault depth cs generalizing key default with
  | case1 => simp at split
  | case4 cs =>
    simp only [Prod.mk.injEq, Option.some.injEq] at split
    obtain ⟨-, rfl⟩ := split
    simp only [List.length_cons]
    omega
  | case2 depth cs _ _ eq ih | case3 depth cs _ _ eq ih | case5 depth c cs _ _ _ _ _ eq ih =>
    simp only [Prod.mk.injEq] at split
    obtain ⟨-, rfl⟩ := split
    have := ih eq
    simp only [List.length_cons]
    omega

/-- Literal text in front of a template; none when there is no text. -/
def prepend (text : List Char) (rest : Template) : Template :=
  if text.isEmpty then rest else literal (String.ofList text) rest

/-- The text taken apart. Keys lose the blanks around them. -/
def ofChars (cs : List Char) : Template :=
  match opened : splitOpening cs with
  | (before, none) => prepend before done
  | (before, some inside) =>
    prepend before <|
      match closed : splitBody 0 inside with
      | none => unclosed
      | some (body, behind) =>
        have := splitOpening_length opened
        have := splitBody_length closed
        match split : splitDefault 0 body with
        | (key, none) => required (String.ofList (Text.trimChars key)) (ofChars behind)
        | (key, some default) =>
          have := splitDefault_length split
          defaulted (String.ofList (Text.trimChars key)) (String.ofList default)
            (ofChars default) (ofChars behind)
termination_by cs.length

/-- The text taken apart. -/
def ofText (text : String) : Template :=
  ofChars text.toList

/-- The text that reads as the template. -/
def print : Template → String
  | done => ""
  | literal text rest => text ++ print rest
  | required key rest => "$\x7b" ++ key ++ "\x7d" ++ print rest
  | defaulted key _ default rest =>
    "$\x7b" ++ key ++ ":=" ++ print default ++ "\x7d" ++ print rest
  | unclosed => "$\x7b"

/-- The keys that the placeholders name, those in defaults included. -/
def keys : Template → List String
  | done => []
  | literal _ rest => keys rest
  | required key rest => key :: keys rest
  | defaulted key _ default rest => key :: (keys default ++ keys rest)
  | unclosed => []

end Template
end BeanContainer
