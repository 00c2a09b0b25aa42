/-
# Injection points

An injection point says what it takes: one bean, an optional one, all of them, a late reference,
or data from properties. The full names of these types appear in messages.

Key definitions:
- `Receiver`, the shapes that beans are received in, `Injection`, a receiver with the type of the
  beans, and `ParamType`, the types of parameters.
- `Injection.name` and `ParamType.name`, the full names of types, by which types are told apart.
-/
import BeanContainer.Condition

namespace BeanContainer

/-- The shapes that beans are received in. -/
inductive Receiver where
  /-- Exactly one bean. -/
  | one
  /-- One bean or, when the tag is optional, none. -/
  | optional
  /-- All beans, in the order of the tag. -/
  | many
  /-- All beans under their ids; of several with one id the last counts. -/
  | byId
  /-- A reference to one bean, which may still be under construction. -/
  | lazy
  /-- The context of the container; no bean at all. -/
  | context
  /-- The handles of all beans, which may still be under construction when `lazy` is set, beside
  the decision of a condition and the number of properties. -/
  | survey (lazy : Bool) (probe : Condition)
  deriving Inhabited

/-- A receiver with the type that the beans are taken as. -/
structure Injection where
  receiver : Receiver
  type : TypeName
  deriving Inhabited

/-- The types of parameters. -/
inductive ParamType where
  /-- A value that is bound from properties; `type` is the name of the schema. -/
  | bound (type : TypeName) (schema : Schema)
  /-- Settings that are bound from properties and have no zero value. -/
  | settings (type : TypeName) (schema : Schema)
  /-- Beans. -/
  | injected (injection : Injection)
  deriving Inhabited

namespace TypeName

/-- The type of texts. -/
def string : TypeName := ⟨"alloc::string::String"⟩

/-- The type without a value. -/
def unit : TypeName := ⟨"()"⟩

/-- The type of optional values. -/
def option (content : TypeName) : TypeName := ⟨"core::option::Option<" ++ content.text ++ ">"⟩

/-- The type of lists. -/
def list (item : TypeName) : TypeName := ⟨"alloc::vec::Vec<" ++ item.text ++ ">"⟩

/-- The type of maps from texts. -/
def dict (item : TypeName) : TypeName :=
  ⟨"std::collections::hash::map::HashMap<" ++ string.text ++ ", " ++ item.text ++ ">"⟩

/-- The type of references to a bean. -/
def shared (bean : TypeName) : TypeName := ⟨"alloc::sync::Arc<" ++ bean.text ++ ">"⟩

/-- The type of late references to a bean. -/
def lazy (bean : TypeName) : TypeName := ⟨"wirebox_core::inject::Lazy<" ++ bean.text ++ ">"⟩

/-- The type of the context of a container. -/
def context : TypeName := ⟨"wirebox_core::context::Context"⟩

/-- The type of settings. -/
def settings (content : TypeName) : TypeName :=
  ⟨"wirebox_core::arg::Prop<" ++ content.text ++ ">"⟩

/-- The type of a parameter that takes all further arguments. -/
def variadic (item : TypeName) : TypeName :=
  ⟨"wirebox_core::arg::Variadic<" ++ item.text ++ ">"⟩

end TypeName

/-- The full name of the type of what an injection gives. -/
def Injection.name (injection : Injection) : TypeName :=
  match injection.receiver with
  | .one => injection.type.shared
  | .optional => injection.type.shared.option
  | .many => injection.type.shared.list
  | .byId => injection.type.shared.dict
  | .lazy => injection.type.lazy
  | .context => .context
  | .survey .. => injection.type

/-- The full name of a type of parameters. -/
def ParamType.name : ParamType → TypeName
  | bound type _ => type
  | settings type _ => type.settings
  | injected injection => injection.name

end BeanContainer
