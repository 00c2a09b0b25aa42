/-
# Beans

A bean is a registered component: what it is called, which types it is injectable as, how it is
made, and the code that its author gave it for the steps of its life.

Key definitions:
- `Request`, what user code asks the container, and `Action`, a step of user code.
- `FieldStep`, a step of the wiring of a bean's fields.
- `Definition`, what is registered, and the operations that build one: `Definition.on`,
  `dependingOn`, `exportedAs`, `Source.provided`.
- `Bean`, a definition with how far it has come.
-/
import BeanContainer.Callable.Argument

namespace BeanContainer

/-- What user code asks the container. -/
inductive Request where
  /-- The beans that match. -/
  | find (selector : Selector)
  /-- What an injection point with this tag would get. -/
  | get (tag : String) (injection : Injection)
  /-- The stored text of a property. -/
  | property (key : String)
  /-- The keys of the properties. -/
  | keys
  /-- The number of properties. -/
  | keyCount
  /-- A property as a value. -/
  | bind (tag : String) (schema : Schema)
  /-- Whether shutdown was requested. -/
  | cancelled
  /-- A request for shutdown. -/
  | shutdown
  /-- The state of the context in words. -/
  | describe
  /-- A call of a function whose parameters are injected. -/
  | invoke (callable : Callable) (arguments : List Arg)
  deriving Inhabited

/-- A step of user code. -/
inductive Action where
  /-- Notes that the step `event` of the bean's life is running. -/
  | announce (event : String)
  | log (text : String)
  | fail (reason : String)
  | panic (reason : String)
  /-- Notes the value of a field. -/
  | showField (name : String)
  /-- Asks the container and notes the answer. -/
  | ask (request : Request)
  /-- Requests shutdown; this needs no context. -/
  | shutdown
  deriving Inhabited

/-- A step of the wiring of a bean's fields. -/
inductive FieldStep where
  /-- Notes that the fields of the bean are being wired. -/
  | announce
  /-- Binds a field from properties. -/
  | value (name tag : String) (validator : Option String) (schema : Schema)
  /-- Fills a field with beans. -/
  | autowire (name tag : String) (injection : Injection)
  /-- Gives a field the bean's logger. -/
  | logger (name : String)
  /-- Keeps the answer to a search in a field. -/
  | find (name : String) (selector : Selector)
  /-- Keeps the text of a property in a field. -/
  | property (name key : String)
  /-- Requests shutdown. -/
  | shutdown
  | fail (reason : String)
  | panic (reason : String)
  deriving Inhabited

/-- How a bean is made. -/
inductive Source where
  /-- It is there already. -/
  | object (made : Value)
  /-- A callable makes it, after the actions. -/
  | constructor (callable : Callable) (arguments : Placement Arg) (actions : List Action)
  /-- It can't be made: the arguments of its constructor have no places. -/
  | refused (reason : UsageFault)
  deriving Inhabited

/-- The source of a bean that a callable makes from arguments. -/
def Source.provided (callable : Callable) (arguments : List Arg) (actions : List Action) :
    Source :=
  match callable.bind arguments with
  | .ok placement => constructor callable placement actions
  | .error reason => refused reason

/-- Work that a bean does once the application is up. -/
structure Work where
  name : String
  actions : List Action
  deriving Inhabited

/-- What is registered. -/
structure Definition where
  id : String
  /-- What the bean calls itself. -/
  label : String
  type : TypeName
  /-- The types that the bean is injectable as, its own first. -/
  exports : List TypeName
  source : Source
  condition : Option Condition
  /-- Its place among the beans of a collection; lower ones come first. -/
  order : Int
  /-- The beans that are made before it. -/
  dependsOn : List Selector
  fields : List FieldStep
  init : List (List Action)
  destroy : List (List Action)
  work : Option Work
  deriving Inhabited

namespace Definition

/-- A definition with nothing but a type, a label and a source; the id is the name of the type. -/
def ofSource (type : TypeName) (label : String) (source : Source) : Definition where
  id := type.text
  label
  type
  exports := [type]
  source
  condition := none
  order := 0
  dependsOn := []
  fields := []
  init := []
  destroy := []
  work := none

/-- Adds a condition: the bean takes part when all its conditions hold. -/
def on (definition : Definition) (condition : Condition) : Definition :=
  { definition with condition :=
      match definition.condition with
      | none => some condition
      | some first => some (.all [first, condition]) }

/-- Adds beans that are made before this one. -/
def dependingOn (definition : Definition) (selector : Selector) : Definition :=
  { definition with dependsOn := definition.dependsOn ++ [selector] }

/-- Adds a type that the bean is injectable as. -/
def exportedAs (definition : Definition) (type : TypeName) : Definition :=
  if type ∈ definition.exports then definition
  else { definition with exports := definition.exports ++ [type] }

end Definition

/-- What became of a bean: what its source gave, and its fields. -/
structure Component where
  made : Value
  fields : List (String × Value)
  deriving Inhabited

/-- A definition with how far it has come. -/
structure Bean extends Definition where
  status : Status
  /-- Whether the object of the source was taken. -/
  taken : Bool
  /-- The component, once its fields are wired. -/
  component : Option Component
  deriving Inhabited

namespace Bean

/-- A bean that was just registered. -/
def ofDefinition (definition : Definition) : Bean :=
  { definition with status := .default, taken := false, component := none }

/-- Whether the bean takes part, as far as it is known. -/
def isAlive (bean : Bean) : Bool :=
  bean.status != .deleted

/-- Whether the bean's condition is not decided. -/
def isUndecided (bean : Bean) : Bool :=
  bean.status == .default

/-- Whether the bean can be injected: its condition holds. -/
def isInjectable (bean : Bean) : Bool :=
  bean.isAlive && !bean.isUndecided

/-- What a search says about the bean. -/
def summary (bean : Bean) : Summary :=
  ⟨bean.id, bean.type, bean.order, bean.status⟩

end Bean

/-- Whether a selector matches a definition. -/
def Selector.accepts (selector : Selector) (definition : Definition) : Bool :=
  match selector with
  | named id => definition.id == id
  | typeNamed name => definition.type.endsWith name || definition.exports.any (·.endsWith name)
  | ofType type => definition.exports.contains type
  | all => true

end BeanContainer
