/-
# What the making of a bean demands

The beans that the making of a bean asks for, read off its definition: those that it depends on,
and those that its constructor and its fields are injected with, in the order in which it asks for
them; beside them, what has to hold for the making to come to its end. Which arguments are given
and how many beans a tag picks is decided with all beans, so it is the same in every order of
registration (`Registry.Reordered.needs`, `Registry.Reordered.sound`).

Key definitions: `Outlook`, `Demand`, `Arg.offer`, `Definition.demand`, `Registry.Needs`,
`Registry.Sound`.
-/
import BeanContainer.Proofs.Registry.Search
import BeanContainer.Proofs.Container.Run

namespace BeanContainer

/-- What a demand depends on besides the definition. -/
structure Outlook where
  store : Store
  /-- The decisions of conditions. -/
  holds : Condition → Except Fault Bool
  /-- The number of beans that a tag picks, if it picks any way. -/
  count : TypeName → AutowireTag → Option ℕ

/-- The outlook of decided beans. -/
def Registry.outlook (registry : Registry) (store : Store) : Outlook where
  store
  holds := registry.holds store
  count type tag := (registry.select type tag).toOption.map List.length

/-- One request for beans; with `lazy` they may be under construction. -/
structure Want where
  type : TypeName
  tag : AutowireTag
  lazy : Bool

/-- What a computation demands: the beans it asks for, in order, and what else has to hold. -/
structure Demand where
  wants : List Want
  met : Prop

namespace Demand

/-- A condition without a request. -/
def given (p : Prop) : Demand := ⟨[], p⟩

def nothing : Demand := given True

/-- What can't be met. -/
def never : Demand := given False

/-- One demand after the other. -/
def and (first second : Demand) : Demand :=
  ⟨first.wants ++ second.wants, first.met ∧ second.met⟩

/-- A request that takes the numbers of beans that `accepts` holds of. -/
def beans (outlook : Outlook) (want : Want) (accepts : ℕ → Prop) : Demand :=
  ⟨[want], ∃ n, outlook.count want.type want.tag = some n ∧ accepts n⟩

end Demand

/-- User code comes to its end while the beans are being made. -/
def Script.Succeeds {α : Type} (store : Store) (script : Script α) : Prop :=
  ∀ c : Container, c.store = store → c.phase = .refreshing → ∃ a d, script.exec c = (.ok a, d)

section

variable (outlook : Outlook)

/-! ### Injection points and parameters -/

/-- What an injection point demands: as many beans as its receiver takes. -/
def Injection.demand (tag : AutowireTag) (injection : Injection) : Demand :=
  let type := injection.type
  match injection.receiver with
  | .one => .beans outlook ⟨type, { tag with optional := false }, false⟩ (· = 1)
  | .optional => .beans outlook ⟨type, tag, false⟩ fun n => n = 1 ∨ n = 0 ∧ tag.optional
  | .many | .byId => .beans outlook ⟨type, tag, false⟩ fun n => n = 0 → tag.optional
  | .lazy => .beans outlook ⟨type, tag, true⟩ fun n => n = 1 ∨ n = 0 ∧ tag.optional
  | .context => .nothing
  | .survey lazy probe => (Demand.beans outlook ⟨type, tag, lazy⟩ fun _ => True).and
    (.given (∀ reason, outlook.holds probe ≠ .error (.panic reason)))

/-- What an argument that a parameter may be given demands, by the type of the parameter; none
when the argument is not given. -/
abbrev Offer := ParamType → Option Demand

namespace ParamType

/-- What a parameter demands when beans are asked for. -/
def beanDemand (tag : AutowireTag) : ParamType → Demand
  | injected ⟨.optional, bean⟩ =>
    Injection.demand outlook { tag with optional := true } ⟨.optional, bean⟩
  | injected injection => injection.demand outlook tag
  | _ => .never

/-- What a parameter demands when a property is asked for. -/
def propertyDemand (expression : String) : ParamType → Demand
  | bound _ schema | settings _ schema =>
    .given (∃ data, outlook.store.bindExpression expression schema = .ok data)
  | injected _ => .never

/-- What a parameter demands when nothing is given for it. -/
def absentDemand (type : ParamType) : Demand :=
  .given (type.zero?.isSome)

end ParamType

namespace Offer

/-- Beans by the type of the parameter. -/
def byType : Offer := fun type => some (type.beanDemand outlook .byType)

/-- What a parameter demands that is not variadic. -/
def single (offer : Offer) (type : ParamType) : Demand :=
  (offer type).getD type.absentDemand

/-- What a variadic parameter demands. -/
def several (type : ParamType) : List Offer → Demand
  | [] => .nothing
  | offer :: rest => ((offer type).getD .nothing).and (several type rest)

end Offer

namespace Callable

def valueDemand (parameter : Parameter) (slot : Offer) (tail : List Offer) : Demand :=
  if parameter.variadic then Offer.several parameter.type tail else slot.single parameter.type

/-- What parameters demand, from the left to the right. -/
def valuesDemand (byType : Offer) (tail : List Offer) :
    List Parameter → List Offer → Demand
  | [], _ => .nothing
  | parameter :: rest, slots =>
    (valueDemand parameter (slots.headD byType) tail).and (valuesDemand byType tail rest slots.tail)

/-- What a call of `body` demands: its parameters, and that it succeeds on all values. -/
def demand (callable : Callable) (placement : Placement Offer)
    (body : List Value → Script Value) : Demand :=
  (valuesDemand (.byType outlook) placement.tail callable.params placement.slots).and
    (.given (∀ values, (body values).Succeeds outlook.store))

/-- What a call demands whose result has to be of the type `wanted`. -/
def callDemand (callable : Callable) (wanted : TypeName) (arguments : List (Placing Offer)) :
    Demand :=
  match callable.place (.byType outlook) arguments with
  | .error _ => .never
  | .ok placement =>
    (callable.demand outlook placement callable.body).and (.given (callable.output = wanted))

end Callable

namespace Arg

mutual

/-- What the argument demands. -/
def offer : Arg → Offer
  | value type _ => fun wanted => some (.given (type = wanted.name))
  | nil => fun wanted => some wanted.absentDemand
  | expression text => fun wanted =>
    if isProperty text then some (wanted.propertyDemand outlook text)
    else match AutowireTag.parse text with
      | .ok tag => some (wanted.beanDemand outlook tag)
      | .error _ => some .never
  | bean tag => fun wanted => some (wanted.beanDemand outlook tag)
  | index _ argument => argument.offer
  | option callable arguments condition => fun wanted =>
    match condition.map outlook.holds with
    | some (.error _) => some .never
    | some (.ok false) => none
    | _ => some (callable.callDemand outlook wanted.name (offers arguments))
  | call callable arguments => fun wanted =>
    some (callable.callDemand outlook wanted.name (offers arguments))

/-- What the arguments demand, each at the place it asks for. -/
def offers : List Arg → List (Placing Offer)
  | [] => []
  | argument :: rest => argument.asking argument.offer :: offers rest

end

end Arg

/-! ### Beans -/

/-- What a step of the wiring of fields demands. -/
def FieldStep.demand (definition : Definition) : FieldStep → Demand
  | value name tag validator schema => .given (∃ target data,
      FieldStep.target definition.type name tag validator = .ok target ∧
        outlook.store.bindTo target schema = .ok data)
  | autowire _ tag injection =>
    match AutowireTag.parse tag with
    | .ok tag => injection.demand outlook tag
    | .error _ => .never
  | fail _ | panic _ => .never
  | _ => .nothing

def FieldStep.demands (definition : Definition) : List FieldStep → Demand
  | [] => .nothing
  | step :: rest => (step.demand outlook definition).and (demands definition rest)

namespace Definition

/-- The code of a constructor. -/
def constructorBody (definition : Definition) (callable : Callable) (actions : List Action)
    (values : List Value) : Script Value := do
  Action.runAll ⟨definition.label, none, false⟩ actions
  callable.body values

/-- What the source of a bean demands. -/
def sourceDemand (definition : Definition) : Demand :=
  match definition.source with
  | .refused _ => .never
  | .object _ => .nothing
  | .constructor callable arguments actions =>
    callable.demand outlook (arguments.map (Arg.offer outlook))
      (definition.constructorBody callable actions)

/-- What the making of a bean demands once the beans are there that it depends on. -/
def demand (definition : Definition) : Demand :=
  (definition.sourceDemand outlook).and
    (FieldStep.demands outlook definition definition.fields)

end Definition

end

namespace Registry

/-- The beans that a request asks for. -/
def picks (registry : Registry) (want : Want) : List ℕ :=
  (registry.select want.type want.tag).toOption.getD []

/-- The bean at `i` takes part and needs the one at `j`: it depends on it, or it is injected with
it. With `lazy`, a late reference to it is enough. -/
def Needs (registry : Registry) (store : Store) (lazy : Bool) (i j : ℕ) : Prop :=
  ∃ bean, registry.beans[i]? = some bean ∧ bean.isAlive = true ∧
    ((lazy = false ∧ ∃ selector ∈ bean.dependsOn, j ∈ registry.find selector) ∨
      ∃ want ∈ (bean.demand (registry.outlook store)).wants,
        want.lazy = lazy ∧ j ∈ registry.picks want)

/-- The bean at `i` takes part and depends on the one at `j`. -/
def DependsOn (registry : Registry) (i j : ℕ) : Prop :=
  ∃ bean, registry.beans[i]? = some bean ∧ bean.isAlive = true ∧
    ∃ selector ∈ bean.dependsOn, j ∈ registry.find selector

theorem DependsOn.needs {registry : Registry} {i j : ℕ} (h : registry.DependsOn i j)
    (store : Store) : registry.Needs store false i j := by
  obtain ⟨bean, hb, ha, hd⟩ := h
  exact ⟨bean, hb, ha, .inl ⟨rfl, hd⟩⟩

/-- The edges of the graph of needs. -/
def Edge (registry : Registry) (store : Store) (i j : ℕ) : Prop :=
  ∃ lazy, registry.Needs store lazy i j

/-- All that the beans that take part demand is there, and their code succeeds. -/
structure Sound (registry : Registry) (store : Store) : Prop where
  dependencies : ∀ (i : ℕ) (bean : Bean), registry.beans[i]? = some bean → bean.isAlive = true →
    ∀ selector ∈ bean.dependsOn, registry.find selector ≠ []
  demands : ∀ (i : ℕ) (bean : Bean), registry.beans[i]? = some bean → bean.isAlive = true →
    (bean.demand (registry.outlook store)).met
  hooks : ∀ (i : ℕ) (bean : Bean), registry.beans[i]? = some bean → bean.isAlive = true →
    ∀ hook ∈ bean.init, ∀ fields,
      (Action.runAll ⟨bean.label, some fields, true⟩ hook).Succeeds store

variable {registry other : Registry} {σ : Equiv.Perm ℕ} {store : Store}

/-! ### Beans under way -/

theorem Alike.picks (h : registry.Alike other) (want : Want) :
    other.picks want = registry.picks want := by
  unfold Registry.picks
  rw [h.select]

/-! ### Beans in another order -/

theorem Reordered.outlook (h : Reordered σ registry other) (hd : registry.Decided)
    (hd' : other.Decided) (store : Store) : other.outlook store = registry.outlook store := by
  unfold Registry.outlook
  rw [h.holds hd hd']
  congr 1
  funext type tag
  have hs := h.select type tag
  generalize registry.select type tag = first at hs ⊢
  generalize other.select type tag = second at hs ⊢
  cases hs with
  | picked hp => exact congrArg some (by rw [← hp.length_eq, List.length_map])
  | refused => rfl

theorem Reordered.mem_picks (h : Reordered σ registry other) {want : Want} {i : ℕ} :
    σ i ∈ other.picks want ↔ i ∈ registry.picks want := by
  unfold Registry.picks
  have hs := h.select want.type want.tag
  generalize registry.select want.type want.tag = first at hs ⊢
  generalize other.select want.type want.tag = second at hs ⊢
  cases hs with
  | picked hp => exact hp.mem_iff.symm.trans (List.mem_map_of_injective σ.injective)
  | refused => exact iff_of_false List.not_mem_nil List.not_mem_nil

/-- The graph of needs is the same in every order of registration. -/
theorem Reordered.needs (h : Reordered σ registry other) (hd : registry.Decided)
    (hd' : other.Decided) {lazy : Bool} {i j : ℕ} :
    other.Needs store lazy (σ i) (σ j) ↔ registry.Needs store lazy i j := by
  unfold Registry.Needs
  rw [h i, h.outlook hd hd']
  simp only [h.mem_find, h.mem_picks]

/-- Whether the beans are sound does not depend on the order of registration. -/
theorem Reordered.sound (h : Reordered σ registry other) (hd : registry.Decided)
    (hd' : other.Decided) (hs : registry.Sound store) : other.Sound store := by
  have hb : ∀ {k : ℕ} {bean : Bean}, other.beans[k]? = some bean →
      registry.beans[σ.symm k]? = some bean := fun {k} bean hk => by
    rw [← h, σ.apply_symm_apply, hk]
  refine ⟨fun k bean hk ha selector hm he => ?_, fun k bean hk ha => ?_, fun k bean hk ha => ?_⟩
  · refine hs.dependencies _ bean (hb hk) ha selector hm ?_
    have hp := h.find_perm selector
    rw [he] at hp
    exact List.map_eq_nil_iff.mp hp.eq_nil
  · rw [h.outlook hd hd']
    exact hs.demands _ bean (hb hk) ha
  · exact hs.hooks _ bean (hb hk) ha

end Registry
end BeanContainer
