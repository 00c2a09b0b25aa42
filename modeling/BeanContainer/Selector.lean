/-
# Selectors and autowire tags

A selector matches beans by id, by the name of a type, or by type; a tag is a list of selectors
that says which beans an injection point takes.

Key definitions:
- `TypeName`, the full name of a type, and `TypeName.endsWith`, whether a shorter name means it.
- `Selector` and `Selector.parse`.
- `AutowireTag` and `AutowireTag.parse`.
-/
import BeanContainer.Fault
import BeanContainer.Text.Blank

namespace BeanContainer

/-- The full name of a type, by which types are told apart. -/
structure TypeName where
  text : String
  deriving DecidableEq, Repr, Inhabited

namespace TypeName

/-- What stands between the parts of a full name. -/
def separator : List Char := [':', ':']

/-- Whether `short` is the full name or its last parts. -/
def endsWith (type : TypeName) (short : String) : Bool :=
  type.text == short || (separator ++ short.toList).isSuffixOf type.text.toList

/-- The characters behind the last separator; `part` holds those since the one before, in
reverse. -/
def lastPart (part : List Char) : List Char → List Char
  | [] => part.reverse
  | ':' :: ':' :: cs => lastPart [] cs
  | c :: cs => lastPart (c :: part) cs

/-- The last part of the name. -/
def short (type : TypeName) : String :=
  String.ofList (lastPart [] type.text.toList)

end TypeName

/-- What matches beans. -/
inductive Selector where
  /-- The bean with this id. -/
  | named (id : String)
  /-- Beans whose type, or a type they are exported as, has this name. -/
  | typeNamed (name : String)
  /-- Beans that are exported as this type. -/
  | ofType (type : TypeName)
  /-- Every bean. -/
  | all
  deriving DecidableEq, Repr, Inhabited

namespace Selector

/-- The selector that a text stands for: `*`, a name of a type with a colon behind it, or an
id. -/
def parse (text : String) : Selector :=
  let trimmed := Text.trimChars text.toList
  if trimmed = ['*'] then all
  else if trimmed.getLast? = some ':' then typeNamed (String.ofList trimmed.dropLast)
  else named (String.ofList trimmed)

/-- The text of a selector. -/
def shown : Selector → String
  | named id => id
  | typeNamed name => name ++ ":"
  | ofType type => type.text
  | all => "*"

/-- The selector with its form spelled out. -/
def described : Selector → String
  | named id => "Id(" ++ Text.quoted id ++ ")"
  | typeNamed name => "TypeName(" ++ Text.quoted name ++ ")"
  | ofType type => "Type(" ++ type.text ++ ")"
  | all => "All"

end Selector

/-- Which beans an injection point takes; `optional` when it may be none. -/
structure AutowireTag where
  selectors : List Selector
  optional : Bool
  deriving DecidableEq, Repr, Inhabited

namespace AutowireTag

/-- The tag without selectors, which takes beans by type. -/
def byType : AutowireTag := ⟨[], false⟩

/-- The tag with one selector. -/
def ofSelector (selector : Selector) : AutowireTag := ⟨[selector], false⟩

/-- The selectors between the commas of `body`. -/
def parseSelectors (body : List Char) : Except Fault (List Selector) :=
  if body.isEmpty then .ok []
  else (body.splitOn ',').mapM fun part =>
    if (Text.trimChars part).isEmpty then .error (.usage (.emptySelector (String.ofList body)))
    else .ok (Selector.parse (String.ofList part))

/-- The tag that a text stands for: selectors with commas between them and, when it is optional,
a question mark at the end. -/
def parse (tag : String) : Except Fault AutowireTag := do
  let trimmed := Text.trimChars tag.toList
  let optional := trimmed.getLast? = some '?'
  let body := if optional then Text.trimChars trimmed.dropLast else trimmed
  let selectors ← parseSelectors body
  if 1 < selectors.count .all then .error (.usage (.repeatedStar (String.ofList body)))
  else return ⟨selectors, optional⟩

/-- Whether the tag takes beans by type alone. -/
def isAuto (tag : AutowireTag) : Bool :=
  tag.selectors.isEmpty || tag.selectors = [.all]

/-- The text of a tag. -/
def shown (tag : AutowireTag) : String :=
  ",".intercalate (tag.selectors.map Selector.shown) ++ if tag.optional then "?" else ""

/-- The tag with its form spelled out. -/
def described (tag : AutowireTag) : String :=
  "AutowireTag \x7b selectors: " ++ Text.bracketed (tag.selectors.map Selector.described)
    ++ ", optional: " ++ Text.ofBool tag.optional ++ " \x7d"

end AutowireTag
end BeanContainer
