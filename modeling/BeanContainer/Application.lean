/-
# Applications

An application gathers sources of properties and beans, starts a container from them, lets beans
do their work, waits for shutdown, and closes the container.

Key definitions:
- `Application`, and `Application.register`, which takes in a module.
- `Application.load`, the properties, and `Application.start`, the refreshed container.
- `Application.finish`, the end, and `Application.run`, the whole life.
-/
import BeanContainer.Configuration
import BeanContainer.Container.Closing

namespace BeanContainer

/-- An application before its start. -/
structure Application where
  container : Container
  sources : List PropertySource
  environment : Option Environment
  /-- The definitions of a command line. -/
  definitions : Option (List (String × String))
  deriving Inhabited

/-- What a module adds to an application. -/
inductive Registration where
  | property (key text : String)
  | bean (definition : Definition)
  | module (registrations : List Registration)
  /-- The module refuses to go on. -/
  | refusal (text : String)
  deriving Inhabited

/-- A computation in the container of an application that may fail. -/
abbrev ApplicationRun := ExceptT ApplicationFault (StateM Container)

/-- A computation in a container, in an application. -/
def ApplicationRun.ofRun {α : Type} (run : Run α) : ApplicationRun α :=
  ExceptT.mk do
    match ← Run.outcome run with
    | .ok a => return .ok a
    | .error fault => return .error (.core fault)

/-- The fault of work that was upset. A panic is no failure of the work: it stays a panic. -/
def Work.fault (work : Work) : Upset → ApplicationFault
  | .failed reason => .work work.name reason
  | .panicked reason => .core (.panic reason)

namespace Application

/-- The application without beans and sources; an environment without variables counts. -/
def empty : Application :=
  ⟨.ofStore .empty, [], some (.ofPairs Environment.defaultScope []), none⟩

/-- Adds a source behind the others. -/
def addSource (application : Application) (source : PropertySource) : Application :=
  { application with sources := application.sources ++ [source] }

/-- Adds a source with one property. -/
def addProperty (application : Application) (key text : String) : Application :=
  application.addSource (.pairs "inline" [(key, text)])

/-- Adds a bean. -/
def addBean (application : Application) (definition : Definition) : Application :=
  { application with container := application.container.register definition }

mutual

/-- Takes in one part of a module; what was taken in before a refusal stays. -/
def register (application : Application) :
    Registration → Application × Except ApplicationFault Unit
  | .property key text => (application.addProperty key text, .ok ())
  | .bean definition => (application.addBean definition, .ok ())
  | .module registrations => registerAll application registrations
  | .refusal text => (application, .error (.core (.usage (.refused text))))

/-- Takes in the parts of a module up to a refusal. -/
def registerAll (application : Application) :
    List Registration → Application × Except ApplicationFault Unit
  | [] => (application, .ok ())
  | registration :: rest =>
    match application.register registration with
    | (application, .ok ()) => registerAll application rest
    | (application, .error fault) => (application, .error fault)

end

/-- All sources in their order: those that were added, the environment, the command line. -/
def allSources (application : Application) : List PropertySource :=
  application.sources ++ (application.environment.map PropertySource.environment).toList
    ++ (application.definitions.map PropertySource.definitions).toList

/-- The properties of the application. -/
def load (application : Application) : Except ApplicationFault Store :=
  PropertySource.applyAll application.container.store application.allSources

/-- Loads the properties and refreshes the container. -/
def start (application : Application) : ApplicationRun Unit := do
  match application.load with
  | .error fault => throw fault
  | .ok store =>
    modify fun container => { container with store }
    ApplicationRun.ofRun Container.refresh

/-- The type as which beans are found that have work to do. -/
def workType : TypeName := ⟨"dyn wirebox_rs::core::runner::Runner"⟩

/-- Lets the bean at a position do its work. -/
def runWork (index : Nat) : ApplicationRun Unit := do
  match (← get).bean? index with
  | none => return
  | some bean =>
    let work := bean.work.getD ⟨bean.label, []⟩
    let fields := bean.component.map (·.fields)
    modify (·.note (.working index))
    match ← liftM (ExceptT.run (Action.runAll ⟨bean.label, fields, true⟩ work.actions)) with
    | .ok () => return
    | .error upset => throw (work.fault upset)

/-- Lets beans do their work one after the other, up to the first that fails. -/
def runAllWork : ApplicationRun Unit := do
  let tag : AutowireTag := { AutowireTag.byType with optional := true }
  let handles ← ApplicationRun.ofRun (Injection.several Context.live workType tag)
  handles.forM fun handle => runWork handle.bean

/-- Waits until shutdown is requested. -/
def awaitShutdown : StateM Container Unit := do
  if (← get).cancelled then return
  else modify fun container => (container.note .waiting).requestShutdown

/-- Ends an application whose beans did their work, with this outcome: waits for shutdown unless a
bean failed, and closes the container in any case. The fault of the work counts before that of the
close. Nothing takes up a panic of the work: it goes on, and the container is not closed. -/
def finish : Except ApplicationFault Unit → ApplicationRun Unit
  | .error (.core (.panic reason)) => do
    modify Container.abandon
    throw (.core (.panic reason))
  | worked => do
    if worked.isOk then liftM awaitShutdown
    let closed ← liftM (Run.outcome Container.close)
    match worked, closed with
    | .error fault, _ => throw fault
    | .ok (), .error fault => throw (.core fault)
    | .ok (), .ok () => return

/-- Starts the application, lets its beans do their work, and ends it. -/
def run (application : Application) : ApplicationRun Unit := do
  application.start
  finish (← liftM (ExceptT.run runAllWork))

end Application
end BeanContainer
