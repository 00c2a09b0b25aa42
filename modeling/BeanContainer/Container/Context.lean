/-
# The context

What user code may ask a container. Properties can be read from the beginning of the refresh on;
beans can be asked for between the refresh and the close.

Key definitions:
- `Context.live`, the injector of a container whose beans are all there.
- `Context.ask`, the answer to a request.
- `Action.run`, a step of user code.
- `FieldStep.run` and `Definition.wireFields`, the wiring of fields.
- `Context.adopt`, the wiring of an object that is no bean.
-/
import BeanContainer.Container.Injection

namespace BeanContainer

namespace Context

/-- Beans can be asked for. -/
def requireFrozen : Run Unit := do
  match (← get).phase with
  | .registering | .refreshing => throw (.usage .notRefreshed)
  | .running => return
  | .closed => throw (.usage .closed)

/-- The properties can be read. -/
def requireProperties : Run Store := do
  match (← get).properties? with
  | some store => return store
  | none => throw (.usage .propertiesNotLoaded)

/-- Gives beans that are all there. -/
def live : Injector := fun type tag _ => do
  let registry := (← get).registry
  match registry.select type tag with
  | .ok indices => return registry.handles type indices
  | .error reason => throw (.lookup reason)

/-- The beans that a selector matches. -/
def find (selector : Selector) : Run (List Summary) := do
  requireFrozen
  let registry := (← get).registry
  return registry.summaries (registry.find selector)

/-- The text of a property. -/
def property (key : String) : Run (Option String) := do
  return (← get).properties?.bind (·.get? key)

/-- The state of the context in words. -/
def describe (container : Container) : String :=
  "Context \x7b frozen: " ++ Text.ofBool container.isFrozen ++ ", cancelled: "
    ++ Text.ofBool container.cancelled ++ " \x7d"

/-- What an injection point with this tag would get. -/
def get (tag : String) (injection : Injection) : Run Value := do
  requireFrozen
  injection.fill live (← Run.ofExcept (AutowireTag.parse tag))

/-- The result of a callable whose parameters are injected. -/
def invoke (callable : Callable) (arguments : List Arg) : Run Value := do
  requireFrozen
  callable.callFor live callable.output (Arg.fillers live arguments)

/-- A value as it is seen now. -/
def see (value : Value) : Run Reply := do
  return .view ((← MonadState.get).view value)

/-- The answer to a request. -/
def ask : Request → Run Reply
  | .find selector => .summaries <$> find selector
  | .get tag injection => do see (← get tag injection)
  | .property key => .property <$> property key
  | .keys => do return .keys (((← MonadState.get).properties?.map Store.keys).getD [])
  | .keyCount => do return .count (← requireProperties).keys.length
  | .bind tag schema => do
    return .data (← Run.ofExcept ((← requireProperties).bind tag schema))
  | .cancelled => do return .cancelled (← MonadState.get).cancelled
  | .shutdown => do
    modify Container.requestShutdown
    return .done
  | .describe => do return .description (describe (← MonadState.get))
  | .invoke callable arguments => do see (← invoke callable arguments)

end Context

/-- Where user code runs: the label of its bean, the bean's fields once they are wired, and
whether it has a context to ask. -/
structure Scene where
  label : String
  fields : Option (List (String × Value))
  hasContext : Bool
  deriving Inhabited

namespace Action

/-- Notes that something happened. -/
def note (event : Event) : Script Unit :=
  modify (·.note event)

/-- Runs a step of user code. -/
def run (scene : Scene) : Action → Script Unit
  | announce event => note (.announced event scene.label)
  | log text => note (.logged scene.label text)
  | fail reason => throw (.failed reason)
  | panic reason => throw (.panicked reason)
  | showField name => do
    let value := scene.fields.bind (·.lookup name)
    note (.field scene.label (value.map (← get).view))
  | ask request => do
    if scene.hasContext then
      match ← liftM (Run.outcome (Context.ask request)) with
      | .error (.panic reason) => throw (.panicked reason)
      | answer => note (.answered scene.label answer)
  | shutdown => modify Container.requestShutdown

/-- Runs steps of user code until one is upset. -/
def runAll (scene : Scene) (actions : List Action) : Script Unit :=
  actions.forM (run scene)

end Action

namespace FieldStep

/-- The target that a field with a tag is bound from. -/
def target (type : TypeName) (name tag : String) (validator : Option String) :
    Except Fault Target := do
  return { ← Target.ofTag tag with validator, path := type.short ++ "." ++ name }

/-- Runs a step of the wiring of the component `owner`, and gives the field that it filled. -/
def run (injector : Injector) (owner : String) (definition : Definition) :
    FieldStep → Run (Option (String × Value))
  | announce => do
    modify (·.note (.wiring definition.label owner))
    return none
  | value name tag validator schema => do
    let target ← Run.ofExcept (target definition.type name tag validator)
    let data ← Run.ofExcept ((← get).store.bindTo target schema)
    return some (name, .data data)
  | autowire name tag injection => do
    let tag ← Run.ofExcept (AutowireTag.parse tag)
    return some (name, ← injection.fill injector tag)
  | logger name => return some (name, .unit)
  | find name selector => do
    return some (name, .summaries (← liftM (Run.outcome (Context.find selector))))
  | property name key => do return some (name, .property (← Context.property key))
  | shutdown => do
    modify Container.requestShutdown
    return none
  | fail reason => throw (.usage (.refused reason))
  | panic reason => throw (.panic reason)

/-- Runs steps of the wiring up to the first one that fails, and gives the fields. -/
def runAll (injector : Injector) (owner : String) (definition : Definition) :
    List FieldStep → Run (List (String × Value))
  | [] => return []
  | step :: rest => do
    let field ← run injector owner definition step
    return field.toList ++ (← runAll injector owner definition rest)

end FieldStep

/-- Wires the fields of the component `owner`. -/
def Definition.wireFields (definition : Definition) (injector : Injector) (owner : String) :
    Run (List (String × Value)) :=
  Run.guarded owner .wire (FieldStep.runAll injector owner definition definition.fields)

/-- Runs a hook of the component `owner`. -/
def runHook (owner : String) (stage : Stage) (scene : Scene) (hook : List Action) : Run Unit :=
  Run.ofScript owner stage (Action.runAll scene hook)

/-- Wires the fields of an object that is no bean, and runs its init hooks. -/
def Context.adopt (definition : Definition) : Run Component := do
  requireFrozen
  let owner := definition.type.text
  let fields ← definition.wireFields live owner
  definition.init.forM (runHook owner .init ⟨definition.label, some fields, true⟩)
  return ⟨.list [], fields⟩

end BeanContainer
