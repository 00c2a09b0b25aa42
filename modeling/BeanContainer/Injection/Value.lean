/-
# Injected values

What injection points are filled with, and what user functions compute. References name beans by
their position among the registered beans, so two references to one bean are the same value.

Key definitions:
- `Handle`, a selected bean with the type that it is taken as.
- `Status` and `Summary`, what a search says about a bean.
- `Value`, and `ParamType.zero?`, the value that a parameter has without an argument.
- `View`, a value as it is seen at one moment, and `Value.view`.
-/
import BeanContainer.Injection.Point

namespace BeanContainer

/-- How far a bean has come. -/
inductive Status where
  /-- Registered; its condition is not decided. -/
  | default
  /-- Its condition holds. -/
  | resolved
  /-- It is being constructed. -/
  | creating
  /-- It is constructed, and its fields are being wired. -/
  | created
  /-- Its fields are wired, and its init hooks are running. -/
  | wired
  | initialized
  /-- Its condition does not hold. -/
  | deleted
  deriving DecidableEq, Repr, Inhabited

/-- The word for a status. -/
def Status.word : Status → String
  | default => "Default"
  | resolved => "Resolved"
  | creating => "Creating"
  | created => "Created"
  | wired => "Wired"
  | initialized => "Initialized"
  | deleted => "Deleted"

/-- What a search says about a bean. -/
structure Summary where
  id : String
  type : TypeName
  order : Int
  status : Status
  deriving DecidableEq, Repr, Inhabited

/-- A selected bean: its position among the beans, its id, and the type that it is taken as. -/
structure Handle where
  bean : Nat
  id : String
  type : TypeName
  deriving DecidableEq, Repr, Inhabited

/-- A handle with its form spelled out. -/
def Handle.described (handle : Handle) : String :=
  "BeanHandle \x7b id: " ++ Text.quoted handle.id ++ ", export: " ++ handle.type.text ++ " \x7d"

/-- The handles that an injection point took, each with whether its bean was there already. -/
structure Survey where
  handles : List (Handle × Bool)
  probe : Except Fault Bool
  keyCount : Nat
  deriving Inhabited

/-- What injection points are filled with, and what user functions compute. -/
inductive Value where
  | unit
  | data (data : Data)
  /-- A reference to the bean at this position. -/
  | bean (index : Nat)
  /-- An optional reference to no bean. -/
  | missing
  | list (items : List Value)
  | dict (entries : List (String × Value))
  | lazy (handle : Option Handle)
  | context
  | survey (survey : Survey)
  /-- What a search gave. -/
  | summaries (answer : Except Fault (List Summary))
  /-- What a look at a property gave. -/
  | property (text : Option String)
  deriving Inhabited

/-- The value that a parameter has when the argument is left out on purpose. -/
def ParamType.zero? : ParamType → Option Value
  | bound _ schema => some (.data schema.zero)
  | settings .. => none
  | injected injection =>
    match injection.receiver with
    | .optional => some .missing
    | .many => some (.list [])
    | .byId => some (.dict [])
    | .lazy => some (.lazy none)
    | .one | .context | .survey .. => none

/-- A survey as it is seen at one moment: for each handle the bean's label if it was there when
the handles were taken, and if it is there now. -/
structure SurveyView where
  handles : List (Handle × Option String × Option String)
  probe : Except Fault Bool
  keyCount : Nat
  deriving Inhabited

/-- A value as it is seen at one moment; beans go by their labels. -/
inductive View where
  | unit
  | data (data : Data)
  | bean (label : String)
  | missing
  | list (items : List View)
  | dict (entries : List (String × View))
  /-- A late reference to the bean `id`, with the bean's label if it is there. -/
  | lazy (id : Option String) (target : Option String)
  | context
  | survey (survey : SurveyView)
  | summaries (answer : Except Fault (List Summary))
  | property (text : Option String)
  deriving Inhabited

namespace Value

/-- The labels of beans by position, and those of the beans that are there. -/
structure Labels where
  ofBean : Nat → String
  present? : Nat → Option String

/-- A survey as it is seen with these labels. -/
def surveyView (labels : Labels) (survey : Survey) : SurveyView where
  handles := survey.handles.map fun (handle, early) =>
    (handle, if early then some (labels.ofBean handle.bean) else none,
      labels.present? handle.bean)
  probe := survey.probe
  keyCount := survey.keyCount

mutual

/-- The value as it is seen with these labels. -/
def view (labels : Labels) : Value → View
  | unit => .unit
  | data d => .data d
  | bean index => .bean (labels.ofBean index)
  | missing => .missing
  | list items => .list (viewItems labels items)
  | dict entries => .dict (viewEntries labels entries)
  | lazy none => .lazy none none
  | lazy (some handle) => .lazy (some handle.id) (labels.present? handle.bean)
  | context => .context
  | survey s => .survey (surveyView labels s)
  | summaries answer => .summaries answer
  | property text => .property text

/-- The items of a list as they are seen with these labels. -/
def viewItems (labels : Labels) : List Value → List View
  | [] => []
  | item :: rest => item.view labels :: viewItems labels rest

/-- The entries of a map as they are seen with these labels. -/
def viewEntries (labels : Labels) : List (String × Value) → List (String × View)
  | [] => []
  | (name, value) :: rest => (name, value.view labels) :: viewEntries labels rest

end

end Value
end BeanContainer
