/-
# The container

The state that a container goes through: its properties, its beans, and what happened so far.

Key definitions:
- `Reply`, the answers to requests, and `Event`, what happened.
- `Phase` and `Container`.
- `Run`, computations in a container that may fail; what they did before they failed stays done.
- `Run.guarded`, a computation as a stage of a bean's life, which a panic does not leave.
- `Container.labels`, the beans by what they call themselves.
-/
import BeanContainer.Registry

namespace BeanContainer

/-- The answer to a request. -/
inductive Reply where
  | summaries (beans : List Summary)
  | view (view : View)
  | property (text : Option String)
  | keys (keys : List String)
  | count (n : Nat)
  | data (data : Data)
  | cancelled (b : Bool)
  | done
  | description (text : String)
  deriving Inhabited

/-- What happened in a container. -/
inductive Event where
  /-- The making of the bean at this position began. -/
  | entered (bean : Nat)
  /-- The code of the bean at this position was called for a stage of its life; `step` counts the
  hooks of one stage. -/
  | called (stage : Stage) (bean : Nat) (step : Nat)
  /-- The making of the bean at this position came to its end. -/
  | initialized (bean : Nat)
  /-- The bean at this position began its work. -/
  | working (bean : Nat)
  /-- Shutdown was requested. -/
  | shutdown
  /-- User code of a bean announced itself. -/
  | announced (event label : String)
  /-- The fields of the bean `id` were about to be wired. -/
  | wiring (label id : String)
  | logged (label text : String)
  /-- The value that a field had, or none before it was wired. -/
  | field (label : String) (value : Option View)
  | answered (label : String) (answer : Except Fault Reply)
  /-- The application began to wait for shutdown. -/
  | waiting
  deriving Inhabited

/-- How far a container has come. -/
inductive Phase where
  | registering
  | refreshing
  | running
  | closed
  deriving DecidableEq, Repr, Inhabited

/-- A container. -/
structure Container where
  store : Store
  registry : Registry
  /-- The positions of the initialized beans, in the order of their initialization. -/
  order : List Nat
  phase : Phase
  /-- Whether shutdown was requested. -/
  cancelled : Bool
  events : List Event
  deriving Inhabited

/-- A computation in a container that may fail. -/
abbrev Run := ExceptT Fault (StateM Container)

/-- A computation in a container that user code does; it may be upset. -/
abbrev Script := ExceptT Upset (StateM Container)

namespace Container

/-- The container with these properties and without beans. -/
def ofStore (store : Store) : Container :=
  ⟨store, .empty, [], .registering, false, []⟩

/-- Registers a bean. -/
def register (container : Container) (definition : Definition) : Container :=
  { container with registry := container.registry.register definition }

/-- Notes that something happened. -/
def note (container : Container) (event : Event) : Container :=
  { container with events := container.events ++ [event] }

/-- Requests shutdown. -/
def requestShutdown (container : Container) : Container :=
  { container.note .shutdown with cancelled := true }

/-- Changes the bean at a position. -/
def modifyBean (container : Container) (index : Nat) (change : Bean → Bean) : Container :=
  { container with registry := container.registry.modify index change }

/-- The bean at a position. -/
def bean? (container : Container) (index : Nat) : Option Bean :=
  container.registry.beans[index]?

/-- The component of the bean at a position, once its fields are wired. -/
def component? (container : Container) (index : Nat) : Option Component :=
  (container.bean? index).bind (·.component)

/-- What beans call themselves, and which of them are there. -/
def labels (container : Container) : Value.Labels where
  ofBean index := ((container.bean? index).map (·.label)).getD ""
  present? index := do
    let bean ← container.bean? index
    if bean.component.isSome then some bean.label else none

/-- A value as it is seen now. -/
def view (container : Container) (value : Value) : View :=
  value.view container.labels

/-- Whether the container was refreshed, be it closed or not. -/
def isFrozen (container : Container) : Bool :=
  container.phase = .running || container.phase = .closed

/-- The properties, once the refresh has begun. -/
def properties? (container : Container) : Option Store :=
  if container.phase = .registering then none else some container.store

end Container

namespace Run

/-- A pure computation in a container. -/
def ofExcept {α : Type} : Except Fault α → Run α
  | .ok a => pure a
  | .error fault => throw fault

/-- The computation with its outcome as a value. -/
def outcome {α : Type} (run : Run α) : StateM Container (Except Fault α) :=
  ExceptT.run run

/-- The computation with its outcome as a value; a panic is no outcome. -/
def answer {α : Type} (run : Run α) : Run (Except Fault α) := do
  match ← liftM (outcome run) with
  | .error (.panic reason) => throw (.panic reason)
  | answer => return answer

/-- The computation as a stage in the life of the bean `owner`: a panic is a failure of the
stage. -/
def guarded {α : Type} (owner : String) (stage : Stage) (run : Run α) : Run α :=
  ExceptT.mk do
    match ← outcome run with
    | .error (.panic reason) => return .error (.lifecycle owner stage (panicReport reason))
    | result => return result

/-- User code as a stage in the life of the bean `owner`. -/
def ofScript {α : Type} (owner : String) (stage : Stage) (script : Script α) : Run α :=
  ExceptT.mk do
    match ← ExceptT.run script with
    | .ok a => return .ok a
    | .error upset => return .error (.lifecycle owner stage upset.reason)

end Run
end BeanContainer
