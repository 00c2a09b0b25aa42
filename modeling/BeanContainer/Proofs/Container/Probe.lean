/-
# Probed wiring

A probe is put around each step in the making of beans: the making of a bean and of those that it
depends on, the call of its constructor, each request for beans, each argument, also one that is
nested in another one, each field and each hook. A probe may look at the container before the step,
or leave a mark behind one that fails. What holds at each of these moments of a run can be said
through what the probe does.

Key definitions: `Probe`, `Probe.look`, `Probe.mark`, `Arg.probed`, `Wiring.probed`.
Key theorems: `Arg.probed_none`, `FieldStep.probedAll_none`, `Probe.exec_mark`.
-/
import BeanContainer.Proofs.Container.Run

namespace BeanContainer

/-- What is put around the steps in the making of beans. -/
structure Probe where
  around : {α : Type} → Run α → Run α

namespace Probe

/-- Nothing is put around the steps. -/
def none : Probe := ⟨fun run => run⟩

/-- A look at the container before each step. -/
def look (look : Run Unit) : Probe := ⟨fun run => look >>= fun _ => run⟩

/-- An event that is noted behind each step that fails. -/
def mark (event : Event) : Probe where
  around run := ExceptT.mk do
    match ← Run.outcome run with
    | .ok a => return .ok a
    | .error fault =>
      modify (·.note event)
      return .error fault

theorem exec_mark {α : Type} (event : Event) (run : Run α) (c : Container) :
    ((mark event).around run).exec c =
      match run.exec c with
      | (.ok a, d) => (.ok a, d)
      | (.error fault, d) => (.error fault, d.note event) := by
  unfold Run.exec
  show (match (run c).1 with | _ => _ : StateM Container (Except Fault α)) (run c).2 = _
  rcases run c with ⟨fault | a, d⟩ <;> rfl

/-- The injector with the probe around each request. -/
def injector (probe : Probe) (inject : Injector) : Injector := fun type tag lazy =>
  probe.around (inject type tag lazy)

end Probe

namespace Arg

mutual

/-- What the argument gives to a parameter, probed as the arguments are that are nested in it. -/
def probed (probe : Probe) (inject : Injector) : Arg → Filler
  | index _ argument => argument.probed probe inject
  | option callable arguments condition => fun wanted => probe.around do
    if ← isGiven condition then
      return some (← callable.callFor inject wanted.name (probedList probe inject arguments))
    else return none
  | call callable arguments => fun wanted => probe.around do
    return some (← callable.callFor inject wanted.name (probedList probe inject arguments))
  | argument => fun wanted => probe.around (argument.filler inject wanted)

/-- What the arguments give, each at the place it asks for. -/
def probedList (probe : Probe) (inject : Injector) : List Arg → List (Placing Filler)
  | [] => []
  | argument :: rest =>
    argument.asking (argument.probed probe inject) :: probedList probe inject rest

end

mutual

theorem probed_none (inject : Injector) : ∀ argument : Arg,
    argument.probed .none inject = argument.filler inject
  | .value .. | .nil | .expression _ | .bean _ => by
    unfold probed
    rfl
  | .index _ argument => by
    unfold probed filler
    exact probed_none inject argument
  | .option callable arguments condition => by
    unfold probed filler
    rw [probedList_none inject arguments]
    rfl
  | .call callable arguments => by
    unfold probed filler
    rw [probedList_none inject arguments]
    rfl

theorem probedList_none (inject : Injector) : ∀ arguments : List Arg,
    probedList .none inject arguments = fillers inject arguments
  | [] => by
    unfold probedList fillers
    rfl
  | argument :: rest => by
    unfold probedList fillers
    rw [probed_none inject argument, probedList_none inject rest]

end

end Arg

namespace FieldStep

/-- Runs steps of the wiring, with the probe around each. -/
def probedAll (probe : Probe) (inject : Injector) (owner : String) (definition : Definition) :
    List FieldStep → Run (List (String × Value))
  | [] => return []
  | step :: rest => do
    let field ← probe.around (step.run inject owner definition)
    return field.toList ++ (← probedAll probe inject owner definition rest)

theorem probedAll_none (inject : Injector) (owner : String) (definition : Definition)
    (steps : List FieldStep) :
    probedAll .none inject owner definition steps = runAll inject owner definition steps := by
  induction steps with
  | nil => rfl
  | cons step rest ih =>
    unfold probedAll runAll
    rw [ih]
    rfl

end FieldStep

/-- Wires the fields of the component `owner`, probed. -/
def Definition.probedFields (definition : Definition) (probe : Probe) (inject : Injector)
    (owner : String) : Run (List (String × Value)) :=
  Run.guarded owner .wire (FieldStep.probedAll probe inject owner definition definition.fields)

theorem Definition.probedFields_none (definition : Definition) (inject : Injector)
    (owner : String) :
    definition.probedFields .none inject owner = definition.wireFields inject owner := by
  unfold probedFields wireFields
  rw [FieldStep.probedAll_none]

namespace Wiring

/-- What the source of a bean gives, with probed arguments. -/
def probedConstruct (probe : Probe) (inject : Injector) (index : ℕ) (bean : Bean) : Run Value :=
  match bean.source with
  | .constructor callable arguments actions =>
    callable.apply inject bean.id .construct (arguments.map (Arg.probed probe inject))
      fun values => do
        Action.note (.called .construct index 0)
        Action.runAll ⟨bean.label, none, false⟩ actions
        callable.body values
  | _ => construct inject index bean

/-- Runs the init hooks of a bean, with the probe around each. -/
def probedInit (probe : Probe) (index : ℕ) (owner : String) (scene : Scene) (step : ℕ) :
    List (List Action) → Run Unit
  | [] => return
  | hook :: rest => do
    modify (·.note (.called .init index step))
    probe.around (runHook owner .init scene hook)
    probedInit probe index owner scene (step + 1) rest

/-- Makes a bean whose dependencies are there, probed. -/
def probedComplete (probe : Probe) (inject : Injector) (index : ℕ) (bean : Bean) : Run Unit := do
  setStatus index .creating
  let made ← probe.around (probedConstruct probe inject index bean)
  setStatus index .created
  let fields ← bean.toDefinition.probedFields probe inject bean.id
  keep index ⟨made, fields⟩
  setStatus index .wired
  probedInit probe index bean.id ⟨bean.label, some fields, true⟩ 0 bean.init
  setStatus index .initialized
  modify fun container =>
    { container.note (.initialized index) with order := container.order ++ [index] }

/-- Makes a bean after the beans that it depends on, probed. -/
def probedBuild (probe : Probe) (make : Maker) (index : ℕ) : Run Unit :=
  withBean index fun bean => do
    modify (·.note (.entered index))
    bean.dependsOn.forM fun selector => probe.around (wireDependency make selector)
    withBean index (probedComplete probe (probe.injector (injector make)) index)

/-- The making of a bean as `wire` does it, probed. -/
def probed (probe : Probe) : (room : ℕ) → (stack : List ℕ) → Maker
  | 0, stack, lazy, index => probe.around do
    if ← mustMake stack lazy index then throw (cycle (← get) stack index)
  | room + 1, stack, lazy, index => probe.around do
    if ← mustMake stack lazy index then
      annotated (stack ++ [index])
        (probedBuild probe (probed probe room (stack ++ [index])) index)

/-- The making of the bean at a position, probed, unless it was dropped. -/
def probedRoot (probe : Probe) (room : ℕ) (index : ℕ) : Run Unit :=
  withBean index fun bean => do
    if bean.isAlive then probed probe room [] false index

end Wiring

namespace Container

/-- Makes all beans that take part, probed. -/
def probedBeans (probe : Probe) : Run Unit := do
  let indices := (← get).registry.indices
  indices.forM (Wiring.probedRoot probe indices.length)

/-- Starts a container: the making of its beans is probed. -/
def probedRefresh (probe : Probe) : Run Unit := do
  modify fun container => { container with phase := .refreshing }
  resolveBeans
  probedBeans probe
  modify fun container => { container with phase := .running }

end Container
end BeanContainer
