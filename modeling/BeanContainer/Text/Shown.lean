/-
# Shown values

Texts of truth values and lists, as they stand in messages and descriptions.

Key definitions: `Text.ofBool`, `Text.commaSeparated`, `Text.bracketed`.
-/
namespace BeanContainer.Text

/-- The word for a truth value. -/
def ofBool (b : Bool) : String := if b then "true" else "false"

/-- Items with a comma and a blank between them. -/
def commaSeparated (items : List String) : String :=
  ", ".intercalate items

/-- Items between brackets. -/
def bracketed (items : List String) : String :=
  "[" ++ commaSeparated items ++ "]"

end BeanContainer.Text
