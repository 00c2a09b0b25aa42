/-
# Closing

The end of a container: its beans are destroyed in the reverse order of their initialization.

Key definitions:
- `Closing.destroyBean` and `Closing.destroyAll`, which run every hook and gather the faults.
- `Container.close`, the end of a container, and `Container.abandon`, the end of one that is left.
-/
import BeanContainer.Container.Wiring

namespace BeanContainer
namespace Closing

/-- Runs the destroy hooks of a bean and gives the faults of those that fail; `step` counts
them. -/
def runHooks (index : Nat) (owner : String) (scene : Scene) (step : Nat) :
    List (List Action) → StateM Container (List Fault)
  | [] => return []
  | hook :: rest => do
    modify (·.note (.called .destroy index step))
    match ← Run.outcome (runHook owner .destroy scene hook) with
    | .ok () => runHooks index owner scene (step + 1) rest
    | .error fault => return fault :: (← runHooks index owner scene (step + 1) rest)

/-- Destroys the bean at a position, if its component is there. -/
def destroyBean (index : Nat) : StateM Container (List Fault) := do
  match (← get).bean? index with
  | none => return []
  | some bean =>
    match bean.component with
    | none => return []
    | some component =>
      runHooks index bean.id ⟨bean.label, some component.fields, false⟩ 0 bean.destroy

/-- Destroys the beans at these positions, one after the other. -/
def destroyAll : List Nat → StateM Container (List Fault)
  | [] => return []
  | index :: rest => do
    let faults ← destroyBean index
    return faults ++ (← destroyAll rest)

end Closing

namespace Container

/-- Ends a container: destroys its beans, last initialized first, and requests shutdown. The
first fault counts, and none keeps a hook from running. -/
def close : Run Unit := do
  let order := (← get).order
  let faults ← liftM (Closing.destroyAll order.reverse)
  modify fun container => { container.requestShutdown with phase := .closed }
  match faults with
  | [] => return
  | fault :: _ => throw fault

/-- Ends a container that is left without a close: no destroy hook runs, and shutdown is not
requested. -/
def abandon (container : Container) : Container :=
  { container with phase := .closed }

end Container
end BeanContainer
