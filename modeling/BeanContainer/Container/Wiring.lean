/-
# Wiring

Beans are made one after the other, each after the beans it needs. A bean that needs others has
them made first, so beans under construction form a stack; a bean that is needed while it is on
the stack closes a circle, unless only a late reference to it is wanted.

Key definitions:
- `Wiring.mustMake`, whether a bean is to be made, or why it can't be used.
- `Wiring.build`, the making of one bean, given how others are made, and its parts
  `wireDependency`, `construct` and `complete`.
- `Wiring.wire`, the making of a bean with all that it needs; `room` bounds the height of the
  stack.
- `Container.refresh`, the start of a container.
-/
import BeanContainer.Container.Context
import BeanContainer.Registry.Resolution

namespace BeanContainer
namespace Wiring

/-- Makes a bean, unless it is there; with `lazy` it may be under construction. -/
abbrev Maker := (lazy : Bool) → Nat → Run Unit

/-- The circle that a bean on the stack closes. -/
def cycle (container : Container) (stack : List Nat) (index : Nat) : Fault :=
  .cycle (container.registry.ids (stack.dropWhile (· != index) ++ [index]))

/-- Whether the bean at a position is to be made. A fault says why it can't be used. -/
def mustMake (stack : List Nat) (lazy : Bool) (index : Nat) : Run Bool := do
  let container ← get
  if container.cancelled then throw .cancelled
  match container.bean? index with
  | none => return false
  | some bean =>
    match bean.status with
    | .wired | .initialized => return false
    | .creating | .created =>
      if lazy && stack.contains index then return false
      else throw (cycle container stack index)
    | .resolved =>
      if stack.contains index then throw (cycle container stack index) else return true
    | .deleted => throw (.lookup (.dropped bean.id))
    | .default => throw (.lookup (.notResolved bean.id))

/-- Puts the path of the stack before a fault that has none. -/
def annotate (container : Container) (stack : List Nat) : Fault → Fault
  | .wiring path cause => .wiring path cause
  | fault => .wiring (container.registry.ids stack) fault

/-- The computation with the path of the stack before its fault. -/
def annotated (stack : List Nat) (run : Run Unit) : Run Unit :=
  ExceptT.mk do
    match ← Run.outcome run with
    | .ok () => return .ok ()
    | .error fault => return .error (annotate (← get) stack fault)

/-- Does something with the bean at a position. -/
def withBean (index : Nat) (use : Bean → Run Unit) : Run Unit := do
  match (← get).bean? index with
  | some bean => use bean
  | none => return

/-- Sets how far the bean at a position has come. -/
def setStatus (index : Nat) (status : Status) : Run Unit :=
  modify (·.modifyBean index fun bean => { bean with status })

/-- Gives the beans that a tag picks after making them. -/
def injector (make : Maker) : Injector := fun type tag lazy => do
  match (← get).registry.select type tag with
  | .error reason => throw (.lookup reason)
  | .ok indices =>
    indices.forM (make lazy)
    return (← get).registry.handles type indices

/-- Makes the beans that a selector of a dependency matches. -/
def wireDependency (make : Maker) (selector : Selector) : Run Unit := do
  match (← get).registry.find selector with
  | [] => throw (.lookup (.missingDependency selector.shown))
  | indices => indices.forM (make false)

/-- What the source of a bean gives. -/
def construct (inject : Injector) (index : Nat) (bean : Bean) : Run Value :=
  match bean.source with
  | .refused _ => throw (.usage (.noInstance bean.id))
  | .object made => do
    if bean.taken then throw (.usage (.noInstance bean.id))
    modify (·.modifyBean index fun bean => { bean with taken := true })
    return made
  | .constructor callable arguments actions =>
    callable.apply inject bean.id .construct (arguments.map (Arg.filler inject)) fun values => do
      Action.note (.called .construct index 0)
      Action.runAll ⟨bean.label, none, false⟩ actions
      callable.body values

/-- Keeps the component of a bean, which has none before. -/
def keep (index : Nat) (component : Component) : Run Unit :=
  withBean index fun bean => do
    if bean.component.isSome then throw (.usage (.wiredTwice bean.id))
    modify (·.modifyBean index fun bean => { bean with component := some component })

/-- Runs the init hooks of a bean; `step` counts them. -/
def runInit (index : Nat) (owner : String) (scene : Scene) (step : Nat) :
    List (List Action) → Run Unit
  | [] => return
  | hook :: rest => do
    modify (·.note (.called .init index step))
    runHook owner .init scene hook
    runInit index owner scene (step + 1) rest

/-- Makes a bean whose dependencies are there. -/
def complete (inject : Injector) (index : Nat) (bean : Bean) : Run Unit := do
  setStatus index .creating
  let made ← construct inject index bean
  setStatus index .created
  let fields ← bean.toDefinition.wireFields inject bean.id
  keep index ⟨made, fields⟩
  setStatus index .wired
  runInit index bean.id ⟨bean.label, some fields, true⟩ 0 bean.init
  setStatus index .initialized
  modify fun container =>
    { container.note (.initialized index) with order := container.order ++ [index] }

/-- Makes a bean after the beans that it depends on. -/
def build (make : Maker) (index : Nat) : Run Unit :=
  withBean index fun bean => do
    modify (·.note (.entered index))
    bean.dependsOn.forM (wireDependency make)
    withBean index (complete (injector make) index)

/-- Makes a bean, unless it is there, with all that it needs. `stack` holds the beans under
construction, and `room` is the number of the other beans. -/
def wire : (room : Nat) → (stack : List Nat) → Maker
  | 0, stack, lazy, index => do
    if ← mustMake stack lazy index then throw (cycle (← get) stack index)
  | room + 1, stack, lazy, index => do
    if ← mustMake stack lazy index then
      annotated (stack ++ [index]) (build (wire room (stack ++ [index])) index)

/-- Makes the bean at a position, unless it was dropped. -/
def wireRoot (room : Nat) (index : Nat) : Run Unit :=
  withBean index fun bean => do
    if bean.isAlive then wire room [] false index

end Wiring

namespace Container

/-- Decides which beans take part. -/
def resolveBeans : Run Unit := do
  let container ← get
  let registry ← Run.ofExcept (container.registry.resolve container.store)
  set { container with registry }

/-- Makes all beans that take part. -/
def wireBeans : Run Unit := do
  let indices := (← get).registry.indices
  indices.forM (Wiring.wireRoot indices.length)

/-- Starts a container: decides which beans take part, makes them, and freezes the container. -/
def refresh : Run Unit := do
  modify fun container => { container with phase := .refreshing }
  resolveBeans
  wireBeans
  modify fun container => { container with phase := .running }

end Container
end BeanContainer
