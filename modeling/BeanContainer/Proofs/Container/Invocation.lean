/-
# Calls get exactly the arguments that were placed

What a call does, as rules over the arguments in their places. A rule says in which container each
argument is evaluated and which container that leaves, so the rules say what is evaluated, and in
which order: the parameters from the left to the right, up to the first that fails, and the function
once, behind all of them. Nothing leads from an argument that is left out to the call in it. A call
inside an argument is placed and made by the same rules, and so at every depth.

Key definitions: `Arg.Gives`, `Callable.Gathers`, `Callable.Receives`, `Callable.Resolves`,
`Callable.Invokes`, `Callable.Returns`, `Run.Follows`.
Key theorems: `Callable.follows_resolves`, `Callable.follows_invokes`, `Arg.obeys`,
`Callable.apply_exact`.
-/
import BeanContainer.Proofs.Callable.Placement
import BeanContainer.Proofs.Container.Fulfilment

namespace BeanContainer

/-- The zero value of a type, if the type has one. -/
def ParamType.zero (type : ParamType) : Except Fault Value :=
  match type.zero? with
  | some value => .ok value
  | none => .error (.usage (.noZero type.name.text))

/-- Whether an optional argument is given in a container. -/
def Arg.decision (c : Container) : Option Condition → Except Fault Bool
  | none => .ok true
  | some condition => c.registry.holds c.store condition

/-! ### The rules -/

mutual

/-- What an argument gives to a parameter of a type, none where it is left out: the container in
which it is evaluated, the outcome, and the container that it leaves. -/
inductive Arg.Gives (inject : Injector) :
    Arg → ParamType → Container → Except Fault (Option Value) → Container → Prop
  /-- A value of the parameter's type arrives as it is. -/
  | value {type wanted fixed} (c) : type = wanted.name →
    Arg.Gives inject (.value type fixed) wanted c (.ok (some fixed)) c
  | mismatched {type wanted fixed} (c) : type ≠ wanted.name →
    Arg.Gives inject (.value type fixed) wanted c
      (.error (.usage (.wrongValue wanted.name.text))) c
  | nil (wanted c) : Arg.Gives inject .nil wanted c (wanted.zero.map some) c
  | property {text wanted outcome c d} : Arg.isProperty text = true →
    (wanted.fromProperty text).exec c = (outcome, d) →
    Arg.Gives inject (.expression text) wanted c (outcome.map some) d
  | tagged {text tag wanted outcome c d} : Arg.isProperty text = false →
    AutowireTag.parse text = .ok tag → (wanted.fromBeans inject tag).exec c = (outcome, d) →
    Arg.Gives inject (.expression text) wanted c (outcome.map some) d
  | unreadable {text fault} (wanted c) : Arg.isProperty text = false →
    AutowireTag.parse text = .error fault →
    Arg.Gives inject (.expression text) wanted c (.error fault) c
  | bean {tag wanted outcome c d} : (wanted.fromBeans inject tag).exec c = (outcome, d) →
    Arg.Gives inject (.bean tag) wanted c (outcome.map some) d
  | index {argument wanted outcome c d} (i) : Arg.Gives inject argument wanted c outcome d →
    Arg.Gives inject (.index i argument) wanted c outcome d
  /-- The argument is left out: nothing in it is evaluated. -/
  | skipped {condition c} (callable arguments wanted) : Arg.decision c condition = .ok false →
    Arg.Gives inject (.option callable arguments condition) wanted c (.ok none) c
  | undecided {condition fault c} (callable arguments wanted) :
    Arg.decision c condition = .error fault →
    Arg.Gives inject (.option callable arguments condition) wanted c (.error fault) c
  | option {callable arguments condition wanted outcome c d} :
    Arg.decision c condition = .ok true →
    Callable.Returns inject callable arguments wanted.name c outcome d →
    Arg.Gives inject (.option callable arguments condition) wanted c (outcome.map some) d
  | call {callable arguments wanted outcome c d} :
    Callable.Returns inject callable arguments wanted.name c outcome d →
    Arg.Gives inject (.call callable arguments) wanted c (outcome.map some) d

/-- What arguments give to a variadic parameter, one after the other: a value each, and nothing
where one is left out. -/
inductive Callable.Gathers (inject : Injector) :
    List Arg → ParamType → Container → Except Fault (List Value) → Container → Prop
  | nil (type c) : Callable.Gathers inject [] type c (.ok []) c
  | taken {argument rest type value outcome c m d} :
    Arg.Gives inject argument type c (.ok (some value)) m →
    Callable.Gathers inject rest type m outcome d →
    Callable.Gathers inject (argument :: rest) type c (outcome.map (value :: ·)) d
  | skipped {argument rest type outcome c m d} : Arg.Gives inject argument type c (.ok none) m →
    Callable.Gathers inject rest type m outcome d →
    Callable.Gathers inject (argument :: rest) type c outcome d
  | failed {argument type fault c d} (rest) : Arg.Gives inject argument type c (.error fault) d →
    Callable.Gathers inject (argument :: rest) type c (.error fault) d

/-- What the parameter at an index receives: a variadic one all that the tail gives, another one
what its slot gives, or its zero value where that is left out. -/
inductive Callable.Receives (inject : Injector) :
    Placement Arg → Parameter → ℕ → Container → Except Fault Value → Container → Prop
  | given {placement parameter i argument value c d} : parameter.variadic = false →
    placement.slots[i]? = some argument →
    Arg.Gives inject argument parameter.type c (.ok (some value)) d →
    Callable.Receives inject placement parameter i c (.ok value) d
  | zero {placement parameter i argument c d} : parameter.variadic = false →
    placement.slots[i]? = some argument → Arg.Gives inject argument parameter.type c (.ok none) d →
    Callable.Receives inject placement parameter i c parameter.type.zero d
  | failed {placement parameter i argument fault c d} : parameter.variadic = false →
    placement.slots[i]? = some argument →
    Arg.Gives inject argument parameter.type c (.error fault) d →
    Callable.Receives inject placement parameter i c (.error fault) d
  | gathered {placement parameter outcome c d} (i) : parameter.variadic = true →
    Callable.Gathers inject placement.tail parameter.type c outcome d →
    Callable.Receives inject placement parameter i c (outcome.map .list) d

/-- What the parameters from an index on receive, from the left to the right, up to the first that
fails. -/
inductive Callable.Resolves (inject : Injector) :
    Placement Arg → List Parameter → ℕ → Container → Except Fault (List Value) → Container → Prop
  | nil (placement i c) : Callable.Resolves inject placement [] i c (.ok []) c
  | next {placement parameter rest i value outcome c m d} :
    Callable.Receives inject placement parameter i c (.ok value) m →
    Callable.Resolves inject placement rest (i + 1) m outcome d →
    Callable.Resolves inject placement (parameter :: rest) i c (outcome.map (value :: ·)) d
  | failed {placement parameter i fault c d} (rest) :
    Callable.Receives inject placement parameter i c (.error fault) d →
    Callable.Resolves inject placement (parameter :: rest) i c (.error fault) d

/-- What a call ends with, as a stage in the life of the bean `owner`. -/
inductive Callable.Invokes (inject : Injector) : Callable → Placement Arg → String → Stage →
    (List Value → Script Value) → Container → Except Fault Value → Container → Prop
  /-- All parameters are there, and the function gives a value. -/
  | returned {callable placement owner stage body values value c m d} :
    Callable.Resolves inject placement callable.params 0 c (.ok values) m →
    (body values).exec m = (.ok value, d) →
    Callable.Invokes inject callable placement owner stage body c (.ok value) d
  /-- All parameters are there, and the function fails or panics. -/
  | upset {callable placement owner stage body values upset c m d} :
    Callable.Resolves inject placement callable.params 0 c (.ok values) m →
    (body values).exec m = (.error upset, d) →
    Callable.Invokes inject callable placement owner stage body c
      (.error (.lifecycle owner stage upset.reason)) d
  /-- A parameter fails: the function is not called. -/
  | failed {callable placement fault c d} (owner stage body) :
    Callable.Resolves inject placement callable.params 0 c (.error fault) d →
    (∀ reason, fault ≠ .panic reason) →
    Callable.Invokes inject callable placement owner stage body c (.error fault) d
  /-- The search for a parameter panics: the function is not called. -/
  | panicked {callable placement reason c d} (owner stage body) :
    Callable.Resolves inject placement callable.params 0 c (.error (.panic reason)) d →
    Callable.Invokes inject callable placement owner stage body c
      (.error (.lifecycle owner stage (panicReport reason))) d

/-- What a call inside an argument gives where a type is wanted. -/
inductive Callable.Returns (inject : Injector) :
    Callable → List Arg → TypeName → Container → Except Fault Value → Container → Prop
  | refused {callable arguments reason} (wanted c) : callable.bind arguments = .error reason →
    Callable.Returns inject callable arguments wanted c (.error (.usage reason)) c
  | returned {callable arguments wanted placement value c d} :
    callable.bind arguments = .ok placement →
    Callable.Invokes inject callable placement callable.name .call callable.body c (.ok value) d →
    callable.output = wanted →
    Callable.Returns inject callable arguments wanted c (.ok value) d
  | mismatched {callable arguments wanted placement value c d} :
    callable.bind arguments = .ok placement →
    Callable.Invokes inject callable placement callable.name .call callable.body c (.ok value) d →
    callable.output ≠ wanted →
    Callable.Returns inject callable arguments wanted c
      (.error (.usage (.wrongResult callable.name callable.output.text wanted.text))) d
  | failed {callable arguments placement fault c d} (wanted) :
    callable.bind arguments = .ok placement →
    Callable.Invokes inject callable placement callable.name .call callable.body c (.error fault) d →
    Callable.Returns inject callable arguments wanted c (.error fault) d

end

/-! ### What happens follows the rules -/

/-- The computation ends as the rule says, and in no other way. -/
def Run.Follows {α : Type} (run : Run α) (rule : Container → Except Fault α → Container → Prop) :
    Prop :=
  ∀ c outcome d, run.exec c = (outcome, d) ↔ rule c outcome d

/-- What the argument gives to parameters is what the rules say. -/
def Arg.Obeys (inject : Injector) (argument : Arg) : Prop :=
  ∀ type, (argument.filler inject type).Follows (argument.Gives inject type)

namespace Run.Follows

variable {α β : Type} {run : Run α} {rule : Container → Except Fault α → Container → Prop}
  {c d : Container}

/-- The end of a computation in two parts, of which the first one follows a rule. -/
theorem bind_iff (h : run.Follows rule) {next : α → Run β} {outcome : Except Fault β} :
    (run >>= next).exec c = (outcome, d) ↔
      (∃ fault, rule c (.error fault) d ∧ .error fault = outcome) ∨
      ∃ a m, rule c (.ok a) m ∧ (next a).exec m = (outcome, d) := by
  rw [exec_bind]
  rcases hr : exec run c with ⟨fault | a, m⟩
  · constructor
    · rintro ⟨⟩
      exact .inl ⟨fault, (h ..).mp hr, rfl⟩
    · rintro (⟨fault, hf, rfl⟩ | ⟨a, m, ha, -⟩)
      · cases hr.symm.trans ((h ..).mpr hf)
        rfl
      · cases hr.symm.trans ((h ..).mpr ha)
  · constructor
    · exact fun hn => .inr ⟨a, m, (h ..).mp hr, hn⟩
    · rintro (⟨fault, hf, -⟩ | ⟨a, m, ha, hn⟩)
      · cases hr.symm.trans ((h ..).mpr hf)
      · cases hr.symm.trans ((h ..).mpr ha)
        exact hn

theorem map_iff (h : run.Follows rule) {f : α → β} {outcome : Except Fault β} :
    (f <$> run).exec c = (outcome, d) ↔ ∃ result, rule c result d ∧ result.map f = outcome := by
  rw [exec_map]
  constructor
  · rintro ⟨⟩
    exact ⟨_, (h ..).mp rfl, rfl⟩
  · rintro ⟨result, hr, rfl⟩
    rw [(h ..).mpr hr]

theorem return_iff (h : run.Follows rule) {f : α → β} {outcome : Except Fault β} :
    (run >>= fun a => pure (f a)).exec c = (outcome, d) ↔
      ∃ result, rule c result d ∧ result.map f = outcome := by
  rw [bind_pure_comp]
  exact h.map_iff

theorem guarded_iff (h : run.Follows rule) {owner : String} {stage : Stage}
    {outcome : Except Fault α} :
    (guarded owner stage run).exec c = (outcome, d) ↔
      ∃ result, rule c result d ∧ result.mapError (Fault.staged owner stage) = outcome := by
  rw [exec_guarded]
  constructor
  · rintro ⟨⟩
    exact ⟨_, (h ..).mp rfl, rfl⟩
  · rintro ⟨result, hr, rfl⟩
    rw [(h ..).mpr hr]

/-- A computation follows its own course. -/
theorem self (run : Run α) : run.Follows fun c outcome d => run.exec c = (outcome, d) :=
  fun _ _ _ => Iff.rfl

/-- A computation that changes nothing. -/
theorem of_exec {result : Container → Except Fault α} (h : ∀ c, run.exec c = (result c, c)) :
    run.Follows fun c outcome d => result c = outcome ∧ c = d := by
  intro c outcome d
  rw [h c, Prod.mk.injEq]

end Run.Follows

theorem ParamType.exec_fromNothing (type : ParamType) (c : Container) :
    type.fromNothing.exec c = (type.zero, c) := by
  unfold fromNothing zero
  cases type.zero? <;> rfl

theorem Arg.exec_isGiven (condition : Option Condition) (c : Container) :
    (isGiven condition).exec c = (decision c condition, c) := by
  cases condition with
  | none => rfl
  | some condition => exact condition.exec_decideNow c

theorem Arg.obeys_expression {inject : Injector} (text : String) :
    (Arg.expression text).Obeys inject := by
  intro type c outcome d
  unfold filler
  split
  · next hp =>
    rw [(Run.Follows.self _).return_iff]
    constructor
    · rintro ⟨result, hr, rfl⟩
      exact .property hp hr
    · intro h
      cases h with
      | property _ hr => exact ⟨_, hr, rfl⟩
      | tagged hn | unreadable _ _ hn => simp [hp] at hn
  · next hp =>
    have hp : isProperty text = false := by simpa using hp
    rw [(Run.Follows.of_exec (Run.exec_ofExcept _)).bind_iff]
    constructor
    · rintro (⟨fault, ⟨ht, rfl⟩, rfl⟩ | ⟨tag, m, ⟨ht, rfl⟩, hr⟩)
      · exact .unreadable type c hp ht
      · obtain ⟨result, hbeans, rfl⟩ := (Run.Follows.self _).return_iff.mp hr
        exact .tagged hp ht hbeans
    · intro h
      cases h with
      | property hn => simp [hp] at hn
      | unreadable _ _ _ ht => exact .inl ⟨_, ⟨ht, rfl⟩, rfl⟩
      | tagged _ ht hr =>
        exact .inr ⟨_, _, ⟨ht, rfl⟩, (Run.Follows.self _).return_iff.mpr ⟨_, hr, rfl⟩⟩

/-- An argument with an index obeys the rules exactly when the argument in it does. -/
theorem Arg.obeys_index {inject : Injector} {i : ℕ} {argument : Arg} :
    (Arg.index i argument).Obeys inject ↔ argument.Obeys inject := by
  have hgives : ∀ type c outcome d, (Arg.index i argument).Gives inject type c outcome d ↔
      argument.Gives inject type c outcome d := fun type c outcome d =>
    ⟨fun h => by cases h; assumption, .index i⟩
  constructor
  · exact fun h type c outcome d => (h type c outcome d).trans (hgives ..)
  · exact fun h type c outcome d => (h type c outcome d).trans (hgives ..).symm

theorem Arg.Obeys.placing {inject : Injector} {argument : Arg} (h : argument.Obeys inject) :
    argument.placing.argument.Obeys inject := by
  cases argument with
  | index i argument => exact obeys_index.mp h
  | _ => exact h

theorem Fault.staged_of_ne {fault : Fault} (owner : String) (stage : Stage)
    (h : ∀ reason, fault ≠ .panic reason) : fault.staged owner stage = fault := by
  cases fault with
  | panic reason => exact absurd rfl (h reason)
  | _ => rfl

namespace Callable

variable {inject : Injector} {callable : Callable} {placement : Placement Arg}
  {parameter : Parameter} {params : List Parameter} {arguments : List Arg} {i : ℕ}

theorem follows_gathers (type : ParamType) (h : ∀ argument ∈ arguments, argument.Obeys inject) :
    (Filler.several type (arguments.map (Arg.filler inject))).Follows
      (Gathers inject arguments type) := by
  induction arguments with
  | nil =>
    intro c outcome d
    constructor
    · rintro ⟨⟩
      exact .nil type c
    · rintro ⟨⟩
      rfl
  | cons argument rest ih =>
    obtain ⟨hone, hrest⟩ := List.forall_mem_cons.mp h
    intro c outcome d
    rw [List.map_cons, Filler.several, (hone type).bind_iff]
    constructor
    · rintro (⟨fault, hf, rfl⟩ | ⟨_ | value, m, ha, hr⟩)
      · exact .failed rest hf
      · exact .skipped ha ((ih hrest ..).mp hr)
      · obtain ⟨result, hresult, rfl⟩ := (ih hrest).return_iff.mp hr
        exact .taken ha hresult
    · intro hg
      cases hg with
      | failed _ hf => exact .inl ⟨_, hf, rfl⟩
      | skipped ha hg => exact .inr ⟨none, _, ha, (ih hrest ..).mpr hg⟩
      | taken ha hg => exact .inr ⟨some _, _, ha, (ih hrest).return_iff.mpr ⟨_, hg, rfl⟩⟩

theorem follows_receives {slot : Filler} (hs : ∀ argument ∈ placement.slots, argument.Obeys inject)
    (ht : ∀ argument ∈ placement.tail, argument.Obeys inject)
    (hi : parameter.variadic = false → ∃ argument, placement.slots[i]? = some argument ∧
      slot = argument.filler inject) :
    (valueOf parameter slot (placement.tail.map (Arg.filler inject))).Follows
      (Receives inject placement parameter i) := by
  intro c outcome d
  unfold valueOf
  cases hv : parameter.variadic with
  | true =>
    rw [if_pos rfl, (follows_gathers parameter.type ht).map_iff]
    constructor
    · rintro ⟨result, hr, rfl⟩
      exact .gathered i hv hr
    · intro h
      cases h with
      | gathered _ _ hg => exact ⟨_, hg, rfl⟩
      | given hf | zero hf | failed hf => simp [hv] at hf
  | false =>
    obtain ⟨argument, ha, rfl⟩ := hi hv
    have hone := hs argument (List.mem_of_getElem? ha) parameter.type
    rw [if_neg Bool.false_ne_true, Filler.single, hone.bind_iff]
    constructor
    · rintro (⟨fault, hf, rfl⟩ | ⟨_ | value, m, hg, hr⟩)
      · exact .failed hv ha hf
      · cases (ParamType.exec_fromNothing ..).symm.trans hr
        exact .zero hv ha hg
      · cases hr
        exact .given hv ha hg
    · intro h
      cases h with
      | gathered _ ht => simp [hv] at ht
      | given _ ha' hg =>
        cases ha.symm.trans ha'
        exact .inr ⟨some _, _, hg, rfl⟩
      | zero _ ha' hg =>
        cases ha.symm.trans ha'
        exact .inr ⟨none, _, hg, ParamType.exec_fromNothing ..⟩
      | failed _ ha' hf =>
        cases ha.symm.trans ha'
        exact .inl ⟨_, hf, rfl⟩

/-- **One parameter after the other.** What stands in the slots goes to the parameters in order. -/
theorem follows_resolves (byType : Filler)
    (hs : ∀ argument ∈ placement.slots, argument.Obeys inject)
    (ht : ∀ argument ∈ placement.tail, argument.Obeys inject)
    (hi : ∀ k parameter, params[k]? = some parameter → parameter.variadic = false →
      i + k < placement.slots.length) :
    (values byType (placement.tail.map (Arg.filler inject)) params
        ((placement.slots.drop i).map (Arg.filler inject))).Follows
      (Resolves inject placement params i) := by
  -- the index goes along with the slots that are left
  induction params generalizing i with
  | nil =>
    intro c outcome d
    constructor
    · rintro ⟨⟩
      exact .nil placement i c
    · rintro ⟨⟩
      rfl
  | cons parameter rest ih =>
    have hslot : parameter.variadic = false → ∃ argument, placement.slots[i]? = some argument ∧
        ((placement.slots.drop i).map (Arg.filler inject)).headD byType =
          argument.filler inject := by
      intro hv
      have hlt : i < placement.slots.length := hi 0 parameter rfl hv
      refine ⟨placement.slots[i], List.getElem?_eq_getElem hlt, ?_⟩
      rw [List.drop_eq_getElem_cons hlt]
      rfl
    have hone := follows_receives hs ht hslot
    have hrest := @ih (i + 1) fun k other hk hv => by
      have hlt := hi (k + 1) other hk hv
      omega
    intro c outcome d
    rw [values, ← List.map_tail, List.tail_drop, hone.bind_iff]
    constructor
    · rintro (⟨fault, hf, rfl⟩ | ⟨value, m, hv, hr⟩)
      · exact .failed rest hf
      · obtain ⟨result, hresult, rfl⟩ := hrest.return_iff.mp hr
        exact .next hv hresult
    · intro h
      cases h with
      | failed _ hf => exact .inl ⟨_, hf, rfl⟩
      | next hv hr => exact .inr ⟨_, _, hv, hrest.return_iff.mpr ⟨_, hr, rfl⟩⟩

/-- The placement of a call has a slot for each parameter that is not variadic. -/
theorem lt_fixed {k : ℕ} (hk : callable.params[k]? = some parameter)
    (hv : parameter.variadic = false) : k < callable.fixed := by
  have hlt : k < callable.params.length := (List.getElem?_eq_some_iff.mp hk).1
  unfold fixed
  split
  · next hlast =>
    -- the one parameter without a slot is the last one, and that is variadic
    have hne : k ≠ callable.params.length - 1 := by
      rintro rfl
      unfold isVariadic at hlast
      rw [List.getLast?_eq_getElem?, hk] at hlast
      exact Bool.false_ne_true (hv.symm.trans hlast)
    omega
  · omega

/-- What stands at the places of a call obeys the rules where the arguments do. -/
theorem obeys_placed (hb : callable.bind arguments = .ok placement)
    (h : ∀ argument ∈ arguments, argument.Obeys inject) :
    (∀ argument ∈ placement.slots, argument.Obeys inject) ∧
      ∀ argument ∈ placement.tail, argument.Obeys inject := by
  obtain ⟨places, ha⟩ := place_arranges hb
  have hcontent : ∀ placing ∈ arguments.map Arg.placing, placing.argument.Obeys inject := by
    intro placing hm
    obtain ⟨argument, hargument, rfl⟩ := List.mem_map.mp hm
    exact (h argument hargument).placing
  constructor
  · intro argument hm
    rcases ha.mem_slots hm with rfl | ⟨placing, hp, rfl⟩
    · exact Arg.obeys_expression ""
    · exact hcontent placing hp
  · intro argument hm
    obtain ⟨placing, hp, rfl, -⟩ := ha.mem_tail hm
    exact hcontent placing hp

theorem follows_parameters (hb : callable.bind arguments = .ok placement)
    (h : ∀ argument ∈ arguments, argument.Obeys inject) :
    (values (.byType inject) (placement.map (Arg.filler inject)).tail callable.params
        (placement.map (Arg.filler inject)).slots).Follows
      (Resolves inject placement callable.params 0) := by
  obtain ⟨places, ha⟩ := place_arranges hb
  obtain ⟨hs, ht⟩ := obeys_placed hb h
  refine follows_resolves (i := 0) (.byType inject) hs ht fun k parameter hk hv => ?_
  rw [Nat.zero_add, ha.slots]
  exact lt_fixed hk hv

/-- **A call follows the rules** where its arguments do. -/
theorem follows_invokes (hb : callable.bind arguments = .ok placement)
    (h : ∀ argument ∈ arguments, argument.Obeys inject) (owner : String) (stage : Stage)
    (body : List Value → Script Value) :
    (callable.apply inject owner stage (placement.map (Arg.filler inject)) body).Follows
      (Invokes inject callable placement owner stage body) := by
  have hvalues := follows_parameters hb h
  intro c outcome d
  rw [apply, (Run.Follows.self _).guarded_iff]
  constructor
  · rintro ⟨result, he, rfl⟩
    rcases hvalues.bind_iff.mp he with ⟨fault, hf, rfl⟩ | ⟨values, m, hv, hr⟩
    · by_cases hp : ∃ reason, fault = .panic reason
      · obtain ⟨reason, rfl⟩ := hp
        exact .panicked owner stage body hf
      · have hne : ∀ reason, fault ≠ .panic reason := fun reason he => hp ⟨reason, he⟩
        have hfailed := Invokes.failed owner stage body hf hne
        rwa [← Fault.staged_of_ne owner stage hne] at hfailed
    · rw [Run.exec_ofScript] at hr
      rcases hbody : (body values).exec m with ⟨upset | value, m'⟩ <;> rw [hbody] at hr <;> cases hr
      · exact .upset hv hbody
      · exact .returned hv hbody
  · intro hi
    cases hi with
    | returned hv hbody =>
      refine ⟨.ok _, hvalues.bind_iff.mpr (.inr ⟨_, _, hv, ?_⟩), rfl⟩
      rw [Run.exec_ofScript, hbody]
      rfl
    | upset hv hbody =>
      refine ⟨.error (.lifecycle owner stage _), hvalues.bind_iff.mpr (.inr ⟨_, _, hv, ?_⟩), rfl⟩
      rw [Run.exec_ofScript, hbody]
      rfl
    | failed _ _ _ hf hne =>
      refine ⟨_, hvalues.bind_iff.mpr (.inl ⟨_, hf, rfl⟩), ?_⟩
      exact congrArg Except.error (Fault.staged_of_ne owner stage hne)
    | panicked _ _ _ hf => exact ⟨_, hvalues.bind_iff.mpr (.inl ⟨_, hf, rfl⟩), rfl⟩

/-- What arguments give goes to the places of the arguments. -/
theorem place_fillers (callable : Callable) (inject : Injector) (arguments : List Arg) :
    callable.place (.byType inject) (Arg.fillers inject arguments) =
      (callable.bind arguments).map (Placement.map (Arg.filler inject)) := by
  have hfillers : Arg.fillers inject arguments =
      (arguments.map Arg.placing).map (Placing.map (Arg.filler inject)) := by
    induction arguments with
    | nil => rfl
    | cons argument rest ih =>
      rw [Arg.fillers, ih, List.map_cons, List.map_cons, Arg.placing, Arg.asking_map]
      cases argument <;> rfl
  have hbyType : Arg.byType.filler inject = Filler.byType inject := rfl
  rw [hfillers, ← hbyType, place_map]
  rfl

theorem follows_returns (callable : Callable) (wanted : TypeName)
    (h : ∀ argument ∈ arguments, argument.Obeys inject) :
    (callable.callFor inject wanted (Arg.fillers inject arguments)).Follows
      (Returns inject callable arguments wanted) := by
  intro c outcome d
  unfold callFor
  rw [place_fillers]
  rcases hb : callable.bind arguments with reason | placement
  · constructor
    · rintro ⟨⟩
      exact .refused wanted c hb
    · intro hr
      cases hr with
      | refused _ _ hr =>
        cases hb.symm.trans hr
        rfl
      | returned hp | mismatched hp | failed _ hp => cases hb.symm.trans hp
  · have hcall := follows_invokes hb h callable.name .call callable.body
    show (callable.apply _ _ _ _ _ >>= _).exec c = _ ↔ _
    rw [hcall.bind_iff]
    constructor
    · rintro (⟨fault, hf, rfl⟩ | ⟨value, m, hv, hr⟩)
      · exact .failed wanted hb hf
      · by_cases hw : callable.output = wanted
        · rw [if_pos hw] at hr
          cases hr
          exact .returned hb hv hw
        · rw [if_neg hw] at hr
          cases hr
          exact .mismatched hb hv hw
    · intro hr
      cases hr with
      | refused _ _ hr => cases hb.symm.trans hr
      | returned hp hv hw =>
        cases hb.symm.trans hp
        refine .inr ⟨_, _, hv, ?_⟩
        rw [if_pos hw]
        rfl
      | mismatched hp hv hw =>
        cases hb.symm.trans hp
        refine .inr ⟨_, _, hv, ?_⟩
        rw [if_neg hw]
        rfl
      | failed _ hp hf =>
        cases hb.symm.trans hp
        exact .inl ⟨_, hf, rfl⟩

end Callable

namespace Arg

variable {inject : Injector} {arguments : List Arg}

theorem obeys_value (type : TypeName) (fixed : Value) : (value type fixed).Obeys inject := by
  intro wanted c outcome d
  unfold filler
  split
  · next ht =>
    constructor
    · rintro ⟨⟩
      exact .value c ht
    · intro h
      cases h with
      | value => rfl
      | mismatched _ hne => exact absurd ht hne
  · next hne =>
    constructor
    · rintro ⟨⟩
      exact .mismatched c hne
    · intro h
      cases h with
      | value _ ht => exact absurd ht hne
      | mismatched => rfl

theorem obeys_nil : nil.Obeys inject := by
  intro wanted c outcome d
  unfold filler
  rw [(Run.Follows.of_exec wanted.exec_fromNothing).return_iff]
  constructor
  · rintro ⟨_, ⟨rfl, rfl⟩, rfl⟩
    exact .nil wanted c
  · rintro ⟨⟩
    exact ⟨_, ⟨rfl, rfl⟩, rfl⟩

theorem obeys_bean (tag : AutowireTag) : (bean tag).Obeys inject := by
  intro wanted c outcome d
  unfold filler
  rw [(Run.Follows.self _).return_iff]
  constructor
  · rintro ⟨result, hr, rfl⟩
    exact .bean hr
  · intro h
    cases h with
    | bean hr => exact ⟨_, hr, rfl⟩

theorem obeys_call (callable : Callable) (h : ∀ argument ∈ arguments, argument.Obeys inject) :
    (call callable arguments).Obeys inject := by
  intro wanted c outcome d
  unfold filler
  rw [(callable.follows_returns wanted.name h).return_iff]
  constructor
  · rintro ⟨result, hr, rfl⟩
    exact .call hr
  · intro hg
    cases hg with
    | call hr => exact ⟨_, hr, rfl⟩

theorem obeys_option (callable : Callable) (h : ∀ argument ∈ arguments, argument.Obeys inject)
    (condition : Option Condition) : (option callable arguments condition).Obeys inject := by
  intro wanted c outcome d
  have hcall := callable.follows_returns wanted.name h
  unfold filler
  rw [(Run.Follows.of_exec (exec_isGiven condition)).bind_iff]
  constructor
  · rintro (⟨fault, ⟨hd, rfl⟩, rfl⟩ | ⟨_ | _, m, ⟨hd, rfl⟩, hr⟩)
    · exact .undecided callable arguments wanted hd
    · cases hr
      exact .skipped callable arguments wanted hd
    · obtain ⟨result, hresult, rfl⟩ := hcall.return_iff.mp hr
      exact .option hd hresult
  · intro hg
    cases hg with
    | undecided _ _ _ hd => exact .inl ⟨_, ⟨hd, rfl⟩, rfl⟩
    | skipped _ _ _ hd => exact .inr ⟨false, _, ⟨hd, rfl⟩, rfl⟩
    | option hd hr => exact .inr ⟨true, _, ⟨hd, rfl⟩, hcall.return_iff.mpr ⟨_, hr, rfl⟩⟩

mutual

/-- **Every argument obeys the rules**, and so do the calls in it at every depth. -/
theorem obeys (inject : Injector) : ∀ argument : Arg, argument.Obeys inject
  | value type fixed => obeys_value type fixed
  | nil => obeys_nil
  | expression text => obeys_expression text
  | bean tag => obeys_bean tag
  | index _ argument => obeys_index.mpr (obeys inject argument)
  | option callable arguments condition =>
    obeys_option callable (obeys_all inject arguments) condition
  | call callable arguments => obeys_call callable (obeys_all inject arguments)

theorem obeys_all (inject : Injector) :
    ∀ arguments : List Arg, ∀ argument ∈ arguments, argument.Obeys inject
  | [], _, hm => nomatch hm
  | argument :: rest, other, hm =>
    List.forall_mem_cons.mpr ⟨obeys inject argument, obeys_all inject rest⟩ other hm

end

/-- Nothing is given by an optional argument alone, and only where its condition does not hold. -/
theorem gives_none_iff {argument : Arg} {type : ParamType} {c d : Container}
    (hi : ∀ i inner, argument ≠ .index i inner) :
    argument.Gives inject type c (.ok none) d ↔
      d = c ∧ ∃ callable arguments condition, argument = .option callable arguments condition ∧
        decision c condition = .ok false := by
  have hsome : ∀ result : Except Fault Value, .ok none ≠ result.map some := by
    rintro (fault | value) <;> nofun
  constructor
  · intro h
    generalize ho : (.ok none : Except Fault (Option Value)) = outcome at h
    cases h with
    | skipped callable arguments _ hd => exact ⟨rfl, callable, arguments, _, rfl, hd⟩
    | index i _ => exact absurd rfl (hi i _)
    | value | mismatched | unreadable | undecided => cases ho
    | nil | property | tagged | bean | option | call => exact absurd ho (hsome _)
  · rintro ⟨rfl, callable, arguments, condition, rfl, hd⟩
    exact .skipped callable arguments type hd

theorem placing_ne_index {argument inner : Arg} (i : ℕ) (h : argument.placing.index? = none) :
    argument.placing.argument ≠ .index i inner := by
  cases argument with
  | index j argument => cases h
  | _ => exact nofun

end Arg

namespace Callable

variable {inject : Injector} {callable : Callable} {placement : Placement Arg} {arguments : List Arg}

/-- **A call passes exactly the arguments that were placed.** With arguments in the places that the
callable binds them to, a call ends, for every injector, function and container, as the rules of
`Invokes` say and in no other way: the parameters are resolved from the left to the right, each from
its slot and a variadic one from the tail; the function is called once when all of them are there,
and not at all when one fails; and calls inside of arguments follow the same rules. An argument of
the tail adds nothing only when it is optional and its condition does not hold, and then it leaves
the container alone. -/
theorem apply_exact (hb : callable.bind arguments = .ok placement) (inject : Injector)
    (owner : String) (stage : Stage) (body : List Value → Script Value) (c : Container)
    (outcome : Except Fault Value) (d : Container) :
    ((callable.apply inject owner stage (placement.map (Arg.filler inject)) body).exec c =
        (outcome, d) ↔
      Invokes inject callable placement owner stage body c outcome d) ∧
    ∀ argument ∈ placement.tail, ∀ type before behind,
      argument.Gives inject type before (.ok none) behind ↔
        behind = before ∧ ∃ nested arguments condition,
          argument = .option nested arguments condition ∧
          Arg.decision before condition = .ok false := by
  have hcall := follows_invokes hb (Arg.obeys_all inject arguments) owner stage body
  refine ⟨hcall c outcome d, fun argument hm type before behind => Arg.gives_none_iff ?_⟩
  obtain ⟨places, ha⟩ := place_arranges hb
  obtain ⟨placing, hp, rfl, hi⟩ := ha.mem_tail hm
  obtain ⟨argument, -, rfl⟩ := List.mem_map.mp hp
  exact fun i inner => Arg.placing_ne_index i hi

/-- A function without parameters. -/
def greeting : Callable := ⟨"greeting", [], .string, fun _ => .ok (.data (.text "hi"))⟩

/-- A text as a parameter. -/
def word : ParamType := .bound .string (.scalar .text)

/-- A function of a text and any number of further ones, which gives all of them. -/
def gathering : Callable where
  name := "gathering"
  params := [⟨word, false⟩, ⟨word, true⟩]
  output := .string
  run values := .ok (.list values)

/-- The value goes to the slot. Of the tail the first option is left out, and the nested call has a
call in its slot and an option in its tail, which is given. -/
theorem apply_exact_gathering :
    (gathering.apply (fun _ _ _ => return []) "outer" .call
        (Placement.map (Arg.filler fun _ _ _ => return [])
          ⟨[.value .string .unit], [.option greeting [] (some (.not .always)),
            .call gathering [.call greeting [], .option greeting [] none]]⟩)
        gathering.body).exec (.ofStore .empty) =
      (.ok (.list [.unit, .list [.list [.data (.text "hi"), .list [.data (.text "hi")]]]]),
        .ofStore .empty) := by
  have hb : gathering.bind [.value .string .unit, .option greeting [] (some (.not .always)),
      .call gathering [.call greeting [], .option greeting [] none]] =
      .ok ⟨[.value .string .unit], [.option greeting [] (some (.not .always)),
        .call gathering [.call greeting [], .option greeting [] none]]⟩ := rfl
  refine (apply_exact hb _ "outer" .call gathering.body _ _ _).1.mpr ?_
  generalize (fun _ _ _ => return [] : Injector) = inject
  generalize Container.ofStore .empty = c
  have hgreeting : Returns inject greeting [] word.name c (.ok (.data (.text "hi"))) c :=
    .returned rfl (.returned (.nil _ 0 c) rfl) rfl
  have hnested : Returns inject gathering [.call greeting [], .option greeting [] none] word.name c
      (.ok (.list [.data (.text "hi"), .list [.data (.text "hi")]])) c := by
    have hgiven : Arg.decision c none = .ok true := rfl
    have htail := Gathers.taken (Arg.Gives.option hgiven hgreeting) (.nil word c)
    have hfirst := @Receives.given inject ⟨[.call greeting []], [.option greeting [] none]⟩
      ⟨word, false⟩ 0 _ _ c c rfl rfl (Arg.Gives.call hgreeting)
    have hlast := @Receives.gathered inject ⟨[.call greeting []], _⟩ ⟨word, true⟩ _ c c 1 rfl htail
    exact .returned rfl (.returned (.next hfirst (Resolves.next hlast (.nil _ 2 c))) rfl) rfl
  have hvalue : Arg.Gives inject (.value .string .unit) word c (.ok (some .unit)) c := .value c rfl
  have hout : Arg.decision c (some (.not .always)) = .ok false := rfl
  have htail := Gathers.skipped (.skipped greeting [] word hout)
    (Gathers.taken (Arg.Gives.call hnested) (.nil word c))
  have hlast := @Receives.gathered inject ⟨[.value .string .unit], _⟩ ⟨word, true⟩ _ c c 1 rfl htail
  exact .returned (.next (.given rfl rfl hvalue) (Resolves.next hlast (.nil _ 2 c))) rfl

end Callable
end BeanContainer
