/-
# Computations that do the same

Two computations are compared in a container that they start in. When one of them comes to its end,
the container went on as `Container.Extends` says; when it fails, the fault is not internal; and the
other one does the same, if the end is one that counts (`Terms`). In a run of several steps an end
that counts makes every earlier container count, so what is said about the end of a run can be used
at each of its steps.

Key definitions: `Terms`, `Run.Twins`, `Mirror`, `Mirror.agreement`.
Key theorems: `Run.Twins.bind`, `Run.Twins.forM`.
-/
import BeanContainer.Proofs.Container.Agreement
import BeanContainer.Proofs.Container.Course

namespace BeanContainer

variable {α β : Type} {c d : Container} {last : Registry}

/-- The containers at which the end of a computation counts. With a container all those count that
it extends. -/
structure Terms (last : Registry) where
  accepts : Container → Prop
  back : ∀ {c d : Container}, c.Extends last d → accepts d → accepts c

namespace Terms

/-- Every end counts. -/
def all (last : Registry) : Terms last := ⟨fun _ => True, fun _ _ => trivial⟩

/-- The end of a computation counts. A failure counts only where every container does. -/
def Counts (terms : Terms last) : Except Fault α × Container → Prop
  | (.ok _, d) => terms.accepts d
  | (.error _, _) => ∀ d, terms.accepts d

theorem counts_all : ∀ result : Except Fault α × Container, (all last).Counts result
  | (.ok _, _) => trivial
  | (.error _, _) => fun _ => trivial

end Terms

namespace Run

/-- In `c` the first computation goes on as it should, and the other one does the same if the end
counts. -/
structure Twins (terms : Terms last) (c : Container) (run other : Run α) : Prop where
  extends_ok : ∀ a d, run.exec c = (.ok a, d) → c.Extends last d
  ordinary : Ordinary (run.exec c).1
  same : terms.Counts (run.exec c) → other.exec c = run.exec c

namespace Twins

variable {terms : Terms last} {run other : Run α}

theorem refl (he : ∀ a d, run.exec c = (.ok a, d) → c.Extends last d)
    (ho : Ordinary (run.exec c).1) : Twins terms c run run :=
  ⟨he, ho, fun _ => rfl⟩

theorem congr {run' other' : Run α} (h : Twins terms c run other)
    (hr : run'.exec c = run.exec c) (ho : other'.exec c = other.exec c) :
    Twins terms c run' other' := by
  refine ⟨?_, ?_, ?_⟩
  · rw [hr]
    exact h.extends_ok
  · rw [hr]
    exact h.ordinary
  · rw [hr, ho]
    exact h.same

theorem of_mild (h : Mild True c run) : Twins terms c run run := by
  refine refl (fun a d hx => ?_) (h.ordinary trivial)
  have ha := h.aside
  rw [hx] at ha
  exact ha.extends

/-- Where every end counts, both do the same. -/
theorem same_all (h : Twins (.all last) c run other) : other.exec c = run.exec c :=
  h.same (Terms.counts_all _)

theorem pure (a : α) : Twins terms c (Pure.pure a : Run α) (Pure.pure a) := of_mild (.pure a)

theorem throw {fault : Fault} (h : fault.isInternal = false) :
    Twins terms c (MonadExcept.throw fault : Run α) (MonadExcept.throw fault) :=
  of_mild (.throw h)

theorem get {next next' : Container → Run α} (h : Twins terms c (next c) (next' c)) :
    Twins terms c (MonadState.get >>= next) (MonadState.get >>= next') :=
  ⟨h.extends_ok, h.ordinary, h.same⟩

theorem modify {f : Container → Container} {next next' : PUnit → Run α}
    (hf : c.Extends last (f c)) (h : Twins terms (f c) (next ⟨⟩) (next' ⟨⟩)) :
    Twins terms c (modify f >>= next) (modify f >>= next') :=
  ⟨fun a d hx => hf.trans (h.extends_ok a d hx), h.ordinary, h.same⟩

theorem bind {next next' : α → Run β} (h : Twins terms c run other)
    (hn : ∀ a d, run.exec c = (.ok a, d) → Twins terms d (next a) (next' a)) :
    Twins terms c (run >>= next) (other >>= next') := by
  refine ⟨fun b e hx => ?_, ordinary_bind h.ordinary fun a d hx => (hn a d hx).ordinary,
    fun hcounts => ?_⟩
  · obtain ⟨a, d, hrun, hx⟩ := bind_ok_inv hx
    exact (h.extends_ok a d hrun).trans ((hn a d hrun).extends_ok b e hx)
  · rcases hr : run.exec c with ⟨fault | a, d⟩
    · rw [exec_bind_error hr] at hcounts ⊢
      exact exec_bind_error ((h.same (by rw [hr]; exact hcounts)).trans hr)
    · rw [exec_bind_ok hr] at hcounts ⊢
      -- where the end of the second part counts, so does that of the first
      have hd : terms.accepts d := by
        rcases hx : (next a).exec d with ⟨fault | b, e⟩ <;> rw [hx] at hcounts
        · exact hcounts d
        · exact terms.back ((hn a d hr).extends_ok b e hx) hcounts
      rw [exec_bind_ok ((h.same (by rw [hr]; exact hd)).trans hr)]
      exact (hn a d hr).same hcounts

/-- What follows the one computation and does nothing where the end counts. -/
theorem bind_quiet {next : α → Run α} (h : Twins terms c run other)
    (hn : ∀ a d, run.exec c = (.ok a, d) → terms.accepts d → (next a).exec d = (.ok a, d)) :
    Twins terms c run (other >>= next) := by
  refine ⟨h.extends_ok, h.ordinary, fun hcounts => ?_⟩
  have hs := h.same hcounts
  rcases hr : run.exec c with ⟨fault | a, d⟩ <;> rw [hr] at hs hcounts
  · exact exec_bind_error hs
  · rw [exec_bind_ok hs]
    exact hn a d hr hcounts

/-- A change of faults alone, by which none becomes internal. -/
theorem mapError {run' other' : Run α} {f : Container → Fault → Fault} (h : Twins terms c run other)
    (hf : ∀ d fault, fault.isInternal = false → (f d fault).isInternal = false)
    (hr : run'.exec c = ((run.exec c).1.mapError (f (run.exec c).2), (run.exec c).2))
    (ho : other'.exec c = ((other.exec c).1.mapError (f (other.exec c).2), (other.exec c).2)) :
    Twins terms c run' other' := by
  have hordinary : Ordinary (run'.exec c).1 := by
    rw [hr]
    exact h.ordinary.mapError (hf _)
  rcases hx : run.exec c with ⟨fault | a, d⟩ <;> rw [hx] at hr
  · refine ⟨fun a e he => ?_, hordinary, fun hcounts => ?_⟩
    · rw [hr] at he
      cases he
    · rw [hr] at hcounts ⊢
      rw [ho, h.same (by rw [hx]; exact hcounts), hx]
  · refine ⟨fun b e he => ?_, hordinary, fun hcounts => ?_⟩
    · rw [hr] at he
      cases he
      exact h.extends_ok a d hx
    · rw [hr] at hcounts ⊢
      rw [ho, h.same (by rw [hx]; exact hcounts), hx]

theorem guarded (owner : String) (stage : Stage) (h : Twins terms c run other) :
    Twins terms c (Run.guarded owner stage run) (Run.guarded owner stage other) :=
  h.mapError (fun _ => Fault.isInternal_staged owner stage) (exec_guarded owner stage run c)
    (exec_guarded owner stage other c)

/-- Both do the same on all items of a list, between which an invariant holds. -/
theorem forM {f g : β → Run PUnit} {items : List β} {holds : Container → Prop}
    (h : ∀ b ∈ items, ∀ c, holds c → Twins terms c (f b) (g b))
    (hk : ∀ b ∈ items, ∀ c d, holds c → (f b).exec c = (.ok ⟨⟩, d) → holds d) (hc : holds c) :
    Twins terms c (items.forM f) (items.forM g) := by
  induction items generalizing c with
  | nil => exact .pure _
  | cons b rest ih =>
    rw [forM_cons, forM_cons]
    refine (h b List.mem_cons_self c hc).bind fun _ d hb => ?_
    have hd := hk b List.mem_cons_self c d hc hb
    exact ih (fun b' hm => h b' (List.mem_cons_of_mem b hm))
      (fun b' hm => hk b' (List.mem_cons_of_mem b hm)) hd

end Twins
end Run

/-- A supply with another injector that does the same. -/
structure Mirror (terms : Terms last) (store : Store) extends Supply last store where
  other : Injector
  twins : ∀ (want : Want) {c}, holds c →
    Run.Twins terms c (injector want.type want.tag want.lazy) (other want.type want.tag want.lazy)

/-- Computations that do the same with either injector, and keep the invariant of the supply. -/
def Mirror.agreement {terms : Terms last} {store : Store} (m : Mirror terms store) : Agreement where
  injector := m.injector
  other := m.other
  rel run run' := ∀ c, m.holds c → Run.Twins terms c run run' ∧
    ∀ a d, run.exec c = (.ok a, d) → m.holds d
  mild h c hc := by
    refine ⟨.of_mild (h c), fun a d hx => m.aside hc ?_⟩
    have ha := (h c).aside
    rwa [hx] at ha
  bind h hn c hc := by
    obtain ⟨ht, hk⟩ := h c hc
    refine ⟨ht.bind fun a d hx => (hn a d (hk a d hx)).1, fun b e hx => ?_⟩
    obtain ⟨a, d, hrun, hx⟩ := Run.bind_ok_inv hx
    exact (hn a d (hk a d hrun)).2 b e hx
  guarded owner stage h c hc := by
    obtain ⟨ht, hk⟩ := h c hc
    exact ⟨ht.guarded owner stage, fun a d hx => hk a d (Run.exec_guarded_ok.mp hx)⟩
  request want next h c hc := by
    have hfit : ∀ handles d, (m.injector want.type want.tag want.lazy).exec c = (.ok handles, d) →
        Run.Mild True d (next handles) := fun handles d hx =>
      (h handles d).imp fun _ => m.present_of_gives hc hx
    refine ⟨(m.twins want hc).bind fun handles d hx => .of_mild (hfit handles d hx), ?_⟩
    intro a e hx
    obtain ⟨handles, d, hgives, hx⟩ := Run.bind_ok_inv hx
    have ha := (hfit handles d hgives).aside
    rw [hx] at ha
    exact m.aside (m.gives hc hgives).1 ha

end BeanContainer
