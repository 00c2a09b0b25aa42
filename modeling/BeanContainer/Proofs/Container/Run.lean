/-
# Computations in a container, step by step

What a computation gives and the container that it leaves, for each way in which computations are
put together. Later files go through runs with these equations and don't unfold the monad.

Key definitions: `Run.exec`, `Script.exec`, `Fault.staged`.
Key theorems: `Run.exec_bind_ok`, `Run.exec_bind_error`, `Run.bind_ok_inv`, `Run.exec_guarded`.
-/
import BeanContainer.Container.Wiring
import Mathlib.Data.Nat.Notation

namespace BeanContainer

variable {α β : Type} {c c' : Container}

namespace Run

/-- The outcome of a computation and the container that it leaves. -/
def exec (run : Run α) (c : Container) : Except Fault α × Container := run c

theorem exec_bind (run : Run α) (next : α → Run β) (c : Container) :
    exec (run >>= next) c =
      match exec run c with
      | (.ok a, c') => exec (next a) c'
      | (.error fault, c') => (.error fault, c') := by
  show (ExceptT.bindCont next (run c).1 (run c).2 : Except Fault β × Container) = _
  unfold exec
  rcases run c with ⟨_ | a, c'⟩ <;> rfl

theorem exec_bind_ok {run : Run α} {next : α → Run β} {a : α} (h : exec run c = (.ok a, c')) :
    exec (run >>= next) c = exec (next a) c' := by
  rw [exec_bind, h]

theorem exec_bind_error {run : Run α} {next : α → Run β} {fault : Fault}
    (h : exec run c = (.error fault, c')) : exec (run >>= next) c = (.error fault, c') := by
  rw [exec_bind, h]

@[simp] theorem exec_get_bind (next : Container → Run β) (c : Container) :
    exec (get >>= next) c = exec (next c) c := rfl

@[simp] theorem exec_modify_bind (f : Container → Container) (next : PUnit → Run β)
    (c : Container) : exec (modify f >>= next) c = exec (next ⟨⟩) (f c) := rfl

/-- A computation in two parts succeeds when both do. -/
theorem bind_ok_inv {run : Run α} {next : α → Run β} {b : β} {d : Container}
    (h : exec (run >>= next) c = (.ok b, d)) :
    ∃ a c', exec run c = (.ok a, c') ∧ exec (next a) c' = (.ok b, d) := by
  rcases hr : exec run c with ⟨_ | a, c'⟩
  · rw [exec_bind_error hr] at h
    cases h
  · rw [exec_bind_ok hr] at h
    exact ⟨a, c', rfl, h⟩

/-- A computation in two parts fails where the first part does or the second. -/
theorem bind_error_inv {run : Run α} {next : α → Run β} {fault : Fault} {d : Container}
    (h : exec (run >>= next) c = (.error fault, d)) :
    exec run c = (.error fault, d) ∨
      ∃ a c', exec run c = (.ok a, c') ∧ exec (next a) c' = (.error fault, d) := by
  rcases hr : exec run c with ⟨f | a, c'⟩
  · rw [exec_bind_error hr] at h
    cases h
    exact .inl rfl
  · rw [exec_bind_ok hr] at h
    exact .inr ⟨a, c', rfl, h⟩

@[simp] theorem exec_map (f : α → β) (run : Run α) (c : Container) :
    exec (f <$> run) c = ((exec run c).1.map f, (exec run c).2) := by
  rw [← bind_pure_comp, exec_bind]
  rcases exec run c with ⟨_ | a, c'⟩ <;> rfl

@[simp] theorem exec_ofExcept (result : Except Fault α) (c : Container) :
    exec (ofExcept result) c = (result, c) := by
  cases result <;> rfl

theorem exec_outcome (run : Run α) (c : Container) :
    exec (liftM (outcome run) : Run (Except Fault α)) c = (.ok (exec run c).1, (exec run c).2) :=
  rfl

/-- What can't fail is done first. -/
theorem exec_lift_bind (run : StateM Container α) (next : α → Run β) (c : Container) :
    exec (liftM run >>= next) c = exec (next (run c).1) (run c).2 := rfl

theorem state_bind (run : StateM Container α) (next : α → StateM Container β) (c : Container) :
    (run >>= next) c = next (run c).1 (run c).2 := rfl

end Run

/-- The fault as one of a stage in the life of the bean `owner`: the stage takes a panic for a
failure of its own. -/
def Fault.staged (owner : String) (stage : Stage) : Fault → Fault
  | .panic reason => .lifecycle owner stage (panicReport reason)
  | fault => fault

namespace Run

theorem exec_guarded (owner : String) (stage : Stage) (run : Run α) (c : Container) :
    exec (guarded owner stage run) c =
      ((exec run c).1.mapError (Fault.staged owner stage), (exec run c).2) := by
  show exec (ExceptT.mk (outcome run >>= _)) c = _
  unfold exec
  show (match (run c).1 with | _ => _ : StateM Container (Except Fault α)) (run c).2 = _
  rcases run c with ⟨fault | a, c'⟩
  · cases fault <;> rfl
  · rfl

theorem exec_guarded_ok {owner : String} {stage : Stage} {run : Run α} {a : α} :
    exec (guarded owner stage run) c = (.ok a, c') ↔ exec run c = (.ok a, c') := by
  rw [exec_guarded]
  rcases exec run c with ⟨fault | b, d⟩
  · exact ⟨nofun, nofun⟩
  · exact Iff.rfl

theorem exec_annotated (stack : List ℕ) (run : Run Unit) (c : Container) :
    exec (Wiring.annotated stack run) c =
      ((exec run c).1.mapError (Wiring.annotate (exec run c).2 stack), (exec run c).2) := by
  unfold exec
  show (match (run c).1 with | _ => _ : StateM Container (Except Fault Unit)) (run c).2 = _
  rcases run c with ⟨fault | a, c'⟩ <;> rfl

/-- What changes nothing on the items of a list changes nothing on the list. -/
theorem exec_mapM {f : β → Run α} {items : List β}
    (h : ∀ b ∈ items, ∃ a, exec (f b) c = (.ok a, c)) :
    ∃ as, exec (items.mapM f) c = (.ok as, c) := by
  induction items with
  | nil => exact ⟨[], rfl⟩
  | cons b rest ih =>
    obtain ⟨a, ha⟩ := h b List.mem_cons_self
    obtain ⟨as, has⟩ := ih fun b' hb => h b' (List.mem_cons_of_mem b hb)
    refine ⟨a :: as, ?_⟩
    rw [List.mapM_cons, exec_bind_ok ha, exec_bind_ok has]
    rfl

/-- What is done with the bean at a position is done with the bean that is there. -/
theorem exec_withBean {index : ℕ} {bean : Bean} (use : Bean → Run Unit)
    (h : c.bean? index = some bean) : exec (Wiring.withBean index use) c = exec (use bean) c := by
  unfold Wiring.withBean
  rw [exec_get_bind, h]

theorem forM_cons (f : β → Run PUnit) (b : β) (rest : List β) :
    (b :: rest).forM f = (f b >>= fun _ => rest.forM f) := rfl

theorem forM_append (f : β → Run PUnit) (items more : List β) :
    (items ++ more).forM f = (items.forM f >>= fun _ => more.forM f) :=
  List.forM_append

/-- A computation on a list fails on one of its items, behind those that it succeeds on. -/
theorem forM_error {f : β → Run PUnit} {items : List β} {c d : Container} {fault : Fault}
    (h : exec (items.forM f) c = (.error fault, d)) :
    ∃ front b back middle, items = front ++ b :: back ∧
      exec (front.forM f) c = (.ok ⟨⟩, middle) ∧ exec (f b) middle = (.error fault, d) := by
  induction items generalizing c with
  | nil => cases h
  | cons b rest ih =>
    rw [forM_cons] at h
    rcases bind_error_inv h with hb | ⟨_, c', hb, hr⟩
    · exact ⟨[], b, rest, c, rfl, rfl, hb⟩
    · obtain ⟨front, b', back, middle, rfl, hfront, hone⟩ := ih hr
      refine ⟨b :: front, b', back, middle, rfl, ?_, hone⟩
      rw [forM_cons, exec_bind_ok hb, hfront]

end Run

/-! ### User code -/

namespace Script

/-- The outcome of user code and the container that it leaves. -/
def exec (script : Script α) (c : Container) : Except Upset α × Container := script c

theorem exec_bind (script : Script α) (next : α → Script β) (c : Container) :
    exec (script >>= next) c =
      match exec script c with
      | (.ok a, c') => exec (next a) c'
      | (.error upset, c') => (.error upset, c') := by
  show (ExceptT.bindCont next (script c).1 (script c).2 : Except Upset β × Container) = _
  unfold exec
  rcases script c with ⟨_ | a, c'⟩ <;> rfl

theorem exec_outcome (run : Run α) (c : Container) :
    exec (liftM (Run.outcome run) : Script (Except Fault α)) c =
      (.ok (run.exec c).1, (run.exec c).2) := rfl

end Script

theorem Run.exec_ofScript (owner : String) (stage : Stage) (script : Script α) (c : Container) :
    exec (ofScript owner stage script) c =
      ((script.exec c).1.mapError fun upset => .lifecycle owner stage upset.reason,
        (script.exec c).2) := by
  unfold exec Script.exec
  show (match (script c).1 with | _ => _ : StateM Container (Except Fault α)) (script c).2 = _
  rcases script c with ⟨upset | a, c'⟩ <;> rfl

end BeanContainer
