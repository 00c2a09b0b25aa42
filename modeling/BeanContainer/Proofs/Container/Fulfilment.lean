/-
# Arguments and fields meet their demands

What fills injection points, parameters and fields ends as the demands say that `Demand` reads off
the definitions. Arguments go to their places in fillers and in offers alike, so nested calls are
followed through (`Supply.Source`, `Callable.place_map`).

Key definitions: `Supply.Offers`, `Supply.Source`.
Key theorems: `Supply.meets_fill`, `Supply.meets_values`, `Supply.sources_args`,
`Supply.meets_steps`.
-/
import BeanContainer.Proofs.Container.Supply

namespace BeanContainer

theorem Handle.exec_require {handle : Handle} {c : Container} (h : c.Present handle.bean) :
    handle.require.exec c = (.ok (.bean handle.bean), c) := by
  obtain ⟨component, hc⟩ := Option.isSome_iff_exists.mp h
  unfold Handle.require
  rw [Run.exec_get_bind, hc]
  rfl

theorem Condition.exec_decideNow (condition : Condition) (c : Container) :
    condition.decideNow.exec c = (c.registry.holds c.store condition, c) := by
  unfold decideNow
  rw [Run.exec_get_bind, Run.exec_ofExcept]

theorem Run.exec_answer {α : Type} (run : Run α) (c : Container) :
    exec (answer run) c = ((match (exec run c).1 with
      | .error (.panic reason) => .error (.panic reason)
      | result => .ok result), (exec run c).2) := by
  unfold answer
  rw [exec_bind, exec_outcome]
  rcases exec run c with ⟨fault | a, d⟩
  · cases fault <;> rfl
  · rfl

/-- Whether beans can be asked for in a phase. -/
def Phase.access : Phase → Except Fault Unit
  | .registering | .refreshing => .error (.usage .notRefreshed)
  | .running => .ok ()
  | .closed => .error (.usage .closed)

theorem Context.exec_requireFrozen (c : Container) :
    requireFrozen.exec c = (c.phase.access, c) := by
  unfold requireFrozen
  rw [Run.exec_get_bind]
  cases c.phase <;> rfl

/-- Where beans can't be asked for, what begins with asking for them fails. -/
theorem Context.exec_refused {α : Type} {next : Unit → Run α} {c : Container} {fault : Fault}
    (h : c.phase.access = .error fault) :
    Run.exec (requireFrozen >>= next) c = (.error fault, c) := by
  rw [Run.exec_bind, exec_requireFrozen, h]

theorem Context.exec_requireProperties {c : Container} (h : c.phase = .refreshing) :
    requireProperties.exec c = (.ok c.store, c) := by
  have hp : c.properties? = some c.store := by
    unfold Container.properties?
    rw [h, if_neg (by decide)]
  unfold requireProperties
  rw [Run.exec_get_bind, hp]
  rfl

/-! ### Places -/

/-- The argument replaced by what it stands for. -/
def Placing.map {α β : Type} (f : α → β) : Placing α → Placing β
  | positional a => positional (f a)
  | placed i a => placed i (f a)
  | extra a => extra (f a)

def Draft.map {α β : Type} (f : α → β) (draft : Draft α) : Draft β :=
  ⟨draft.slots.map (Option.map f), draft.next, draft.tail.map f⟩

theorem Arg.asking_map {α β : Type} (f : α → β) (argument : Arg) (a : α) :
    (argument.asking a).map f = argument.asking (f a) := by
  cases argument <;> rfl

namespace Callable

variable {α β : Type}

theorem named_map (f : α → β) (arguments : List (Placing α)) :
    Placing.named (arguments.map (Placing.map f)) = Placing.named arguments := by
  induction arguments with
  | nil => rfl
  | cons argument rest ih =>
    cases argument with
    | extra a => exact ih
    | _ => rfl

theorem placeOne_map (callable : Callable) (named : Bool) (f : α → β) (draft : Draft α)
    (argument : Placing α) :
    callable.placeOne named (draft.map f) (argument.map f) =
      (callable.placeOne named draft argument).map (Draft.map f) := by
  cases argument with
  | extra a =>
    unfold placeOne Placing.map
    dsimp only
    split
    · simp [Draft.map, Except.map]
    · rfl
  | placed i a =>
    unfold placeOne Placing.map
    dsimp only
    split
    · rfl
    · have hs : (draft.map f).slots[i]? = draft.slots[i]?.map (Option.map f) :=
        List.getElem?_map
      rw [hs]
      rcases draft.slots[i]? with _ | _ | taken
      · rfl
      · simp [Draft.map, Except.map, List.map_set]
      · rfl
  | positional a =>
    unfold placeOne Placing.map
    dsimp only
    split
    · rfl
    · have hn : (draft.map f).next = draft.next := rfl
      rw [hn]
      by_cases hlt : draft.next < callable.fixed
      · rw [if_pos hlt, if_pos hlt]
        simp [Draft.map, Except.map, List.map_set]
      · rw [if_neg hlt, if_neg hlt]
        split
        · simp [Draft.map, Except.map]
        · rfl

theorem foldlM_placeOne_map (callable : Callable) (named : Bool) (f : α → β)
    (arguments : List (Placing α)) (draft : Draft α) :
    (arguments.map (Placing.map f)).foldlM (callable.placeOne named) (draft.map f) =
      (arguments.foldlM (callable.placeOne named) draft).map (Draft.map f) := by
  induction arguments generalizing draft with
  | nil => rfl
  | cons argument rest ih =>
    rw [List.map_cons, List.foldlM_cons, List.foldlM_cons, placeOne_map]
    rcases callable.placeOne named draft argument with reason | next
    · rfl
    · exact ih next

/-- What arguments stand for goes to the places of the arguments. -/
theorem place_map (callable : Callable) (f : α → β) (byType : α)
    (arguments : List (Placing α)) :
    callable.place (f byType) (arguments.map (Placing.map f)) =
      (callable.place byType arguments).map (Placement.map f) := by
  unfold place
  cases callable.misplaced? with
  | some parameter => rfl
  | none =>
    have hs : Draft.map f ⟨List.replicate callable.fixed none, 0, []⟩ =
        ⟨List.replicate callable.fixed none, 0, []⟩ := by simp [Draft.map]
    dsimp only
    rw [named_map, ← hs, foldlM_placeOne_map]
    generalize arguments.foldlM (callable.placeOne (Placing.named arguments))
      ⟨List.replicate callable.fixed none, 0, []⟩ = result
    rcases result with reason | draft
    · rfl
    · have hg : (Option.getD · (f byType)) ∘ Option.map f = f ∘ (Option.getD · byType) := by
        funext slot
        cases slot <;> rfl
      show Except.ok _ = Except.ok _
      simp [Draft.map, Placement.map, List.map_map, hg]

end Callable

namespace Supply

variable {last : Registry} {store : Store} (s : Supply last store) {α : Type}

/-! ### Injection points -/

/-- A request for the beans themselves. -/
theorem meets_request (want : Want) :
    s.Meets (.beans (last.outlook store) want fun _ => True)
      (s.injector want.type want.tag want.lazy) := by
  rw [← bind_pure (s.injector want.type want.tag want.lazy)]
  exact .beans want fun handles d _ _ => .inl ⟨handles, rfl⟩

theorem meets_atMostOne (type : TypeName) (tag : AutowireTag) (lazy : Bool)
    (next : Option Handle → Run α) (accepts : ℕ → Prop)
    (hnone : ∀ d, tag.optional = true → (∃ a, (next none).exec d = (.ok a, d)) ∨
      (∃ fault, (next none).exec d = (.error fault, d) ∧ fault.isLocal = true) ∧ ¬ accepts 0)
    (hsome : ∀ handle d, (lazy = false → d.Present handle.bean) →
      ∃ a, (next (some handle)).exec d = (.ok a, d))
    (hzero : tag.optional = false → ¬ accepts 0) (hmany : ∀ n, ¬ accepts (n + 2)) :
    s.Meets (.beans (last.outlook store) ⟨type, tag, lazy⟩ accepts)
      (Injection.atMostOne s.injector type tag lazy >>= next) := by
  unfold Injection.atMostOne
  rw [bind_assoc]
  refine Meets.beans ⟨type, tag, lazy⟩ fun handles d _ hp => ?_
  match handles, hp with
  | [], _ =>
    dsimp only
    cases ho : tag.optional with
    | true => exact hnone d ho
    | false => exact .inr ⟨⟨_, rfl, rfl⟩, hzero ho⟩
  | [handle], hp => exact .inl (hsome handle d fun hl => hp hl handle List.mem_cons_self)
  | _ :: _ :: rest, _ => exact .inr ⟨⟨_, rfl, rfl⟩, hmany rest.length⟩

theorem meets_several (type : TypeName) (tag : AutowireTag) (next : List Handle → Run α)
    (h : ∀ handles d, (∀ handle ∈ handles, d.Present handle.bean) →
      ∃ a, (next handles).exec d = (.ok a, d)) :
    s.Meets (.beans (last.outlook store) ⟨type, tag, false⟩ fun n => n = 0 → tag.optional)
      (Injection.several s.injector type tag >>= next) := by
  unfold Injection.several
  rw [bind_assoc]
  refine Meets.beans ⟨type, tag, false⟩ fun handles d _ hp => ?_
  by_cases he : (handles.isEmpty && !tag.optional) = true
  · rw [if_pos he]
    obtain ⟨he, ho⟩ := Bool.and_eq_true_iff.mp he
    refine .inr ⟨⟨_, rfl, rfl⟩, fun hn => ?_⟩
    rw [hn (List.length_eq_zero_iff.mpr (List.isEmpty_iff.mp he))] at ho
    cases ho
  · rw [if_neg he]
    exact .inl (h handles d (hp rfl))

/-- **An injection point gets what it demands.** -/
theorem meets_fill (tag : AutowireTag) (injection : Injection) :
    s.Meets (injection.demand (last.outlook store) tag) (injection.fill s.injector tag) := by
  obtain ⟨receiver, type⟩ := injection
  have hlate : ∀ n, ¬ (n + 2 = 1 ∨ n + 2 = 0 ∧ tag.optional = true) := by omega
  have hzero : tag.optional = false → ¬ (0 = 1 ∨ 0 = 0 ∧ tag.optional = true) := by
    intro ho
    simp [ho]
  cases receiver with
  | one =>
    refine s.meets_atMostOne type { tag with optional := false } false _ (· = 1) ?_ ?_ ?_ ?_
    · intro d ho
      cases ho
    · exact fun handle d hp => ⟨_, Handle.exec_require (hp rfl)⟩
    · exact fun _ => by omega
    · exact fun n => by omega
  | optional =>
    refine s.meets_atMostOne type tag false _ _ ?_ ?_ hzero hlate
    · exact fun d _ => .inl ⟨_, rfl⟩
    · exact fun handle d hp => ⟨_, Handle.exec_require (hp rfl)⟩
  | many =>
    refine s.meets_several type tag _ fun handles d hp => ?_
    obtain ⟨values, hv⟩ := Run.exec_mapM fun handle hm => ⟨_, Handle.exec_require (hp handle hm)⟩
    exact ⟨_, Run.exec_bind_ok hv⟩
  | byId =>
    refine s.meets_several type tag _ fun handles d hp => ?_
    obtain ⟨values, hv⟩ := Run.exec_mapM (f := fun handle : Handle => do
        return (handle.id, ← handle.require)) fun handle hm =>
      ⟨(handle.id, _), Run.exec_bind_ok (Handle.exec_require (hp handle hm))⟩
    exact ⟨_, Run.exec_bind_ok hv⟩
  | lazy =>
    refine s.meets_atMostOne type tag true _ _ ?_ ?_ hzero hlate
    · exact fun d _ => .inl ⟨_, rfl⟩
    · exact fun handle d _ => ⟨_, rfl⟩
  | context => exact .pure _
  | survey lazy probe =>
    have hsurvey : s.Meets (Injection.demand (last.outlook store) tag ⟨.survey lazy probe, type⟩)
        (Injection.survey s.injector type tag lazy probe) := by
      refine (s.meets_request ⟨type, tag, lazy⟩).bind fun handles => .of_exec fun c hc => ?_
      rw [Run.exec_get_bind, Run.exec_bind, Run.exec_answer, Condition.exec_decideNow,
        (s.kept hc).holds]
      rcases (last.outlook store).holds probe with fault | decision
      · cases fault with
        | panic reason => exact ⟨.refl c, rfl, fun hp => absurd rfl (hp reason)⟩
        | _ => exact ⟨.refl c, trivial, fun _ => ⟨_, rfl⟩⟩
      · exact ⟨.refl c, trivial, fun _ => ⟨_, rfl⟩⟩
    exact hsurvey.bind_pure Value.survey

/-! ### Parameters -/

theorem meets_fromBeans (tag : AutowireTag) (type : ParamType) :
    s.Meets (type.beanDemand (last.outlook store) tag) (type.fromBeans s.injector tag) := by
  match type with
  | .bound .. | .settings .. => exact .throw id rfl
  | .injected ⟨receiver, bean⟩ =>
    have hf := fun receiver => s.meets_fill tag ⟨receiver, bean⟩
    cases receiver with
    | optional => exact s.meets_fill { tag with optional := true } ⟨.optional, bean⟩
    | one => exact hf .one
    | many => exact hf .many
    | byId => exact hf .byId
    | lazy => exact hf .lazy
    | context => exact hf .context
    | survey lazy probe => exact hf (.survey lazy probe)

theorem meets_fromProperty (expression : String) (type : ParamType) :
    s.Meets (type.propertyDemand (last.outlook store) expression)
      (type.fromProperty expression) := by
  match type with
  | .bound _ schema | .settings _ schema =>
    refine .get fun c hc => ?_
    rw [hc.store]
    have hplain := store.plain_bindExpression expression schema
    exact (Meets.ofExcept hplain.isLocal).bind_pure Value.data
  | .injected injection => exact .throw id rfl

theorem meets_fromNothing (type : ParamType) : s.Meets type.absentDemand type.fromNothing := by
  unfold ParamType.fromNothing ParamType.absentDemand
  cases type.zero? with
  | none => exact .throw (by simp [Demand.given]) rfl
  | some value => exact (Meets.pure value).imp rfl fun _ => trivial

/-- What an argument gives is what it offers: it ends as the demand says, and it gives a value
when it is given itself. -/
def Offers (offer : Option Demand) (run : Run (Option Value)) : Prop :=
  ∀ c, s.holds c → s.Ends (offer.getD .nothing) c (run.exec c) ∧
    ∀ value d, run.exec c = (.ok value, d) → value.isSome = offer.isSome

variable {s}

theorem Meets.offers {demand : Demand} {run : Run Value} (h : s.Meets demand run) :
    s.Offers (some demand) (run >>= fun value => Pure.pure (some value)) := by
  intro c hc
  refine ⟨h.bind_pure some c hc, fun value d hr => ?_⟩
  obtain ⟨a, c', -, ha⟩ := Run.bind_ok_inv hr
  cases ha
  rfl

/-- What an argument gives, with what it offers. -/
structure Source (s : Supply last store) where
  filler : Filler
  offer : Offer
  offers : ∀ type, s.Offers (offer type) (filler type)

/-- Beans by the type of the parameter. -/
def Source.byType (s : Supply last store) : Source s where
  filler := .byType s.injector
  offer := .byType (last.outlook store)
  offers type := (s.meets_fromBeans .byType type).offers

theorem meets_single (source : Source s) (type : ParamType) :
    s.Meets (source.offer.single type) (source.filler.single type) := by
  intro c hc
  obtain ⟨he, hv⟩ := source.offers type c hc
  unfold Filler.single Offer.single
  cases ho : source.offer type with
  | none =>
    rw [ho] at he hv
    refine (he.bind fun value d hr hd => ?_).imp (.and .nothing type.absentDemand) rfl
      fun hm => ⟨trivial, hm⟩
    obtain rfl := Option.isNone_iff_eq_none.mp (Option.isSome_eq_false_iff.mp (hv _ _ hr))
    exact s.meets_fromNothing type d hd
  | some demand =>
    rw [ho] at he hv
    refine (he.bind fun value d hr hd => ?_).imp (demand.and .nothing)
      (List.append_nil _) fun hm => ⟨hm, trivial⟩
    obtain ⟨v, rfl⟩ := Option.isSome_iff_exists.mp (hv _ _ hr)
    exact Meets.pure v d hd

theorem meets_variadic (type : ParamType) (sources : List (Source s)) :
    s.Meets (Offer.several type (sources.map (·.offer)))
      (Filler.several type (sources.map (·.filler))) := by
  induction sources with
  | nil => exact .pure _
  | cons source rest ih =>
    intro c hc
    refine (source.offers type c hc).1.bind fun value d hr hd => ?_
    cases value with
    | none => exact ih d hd
    | some value => exact ih.bind_pure (value :: ·) d hd

theorem meets_values (tail : List (Source s)) (params : List Parameter) (slots : List (Source s)) :
    s.Meets (Callable.valuesDemand (.byType (last.outlook store)) (tail.map (·.offer)) params
        (slots.map (·.offer)))
      (Callable.values (.byType s.injector) (tail.map (·.filler)) params
        (slots.map (·.filler))) := by
  induction params generalizing slots with
  | nil => exact .pure _
  | cons parameter rest ih =>
    have hone : ∀ slot : Source s,
        s.Meets (Callable.valueDemand parameter slot.offer (tail.map (·.offer)))
          (Callable.valueOf parameter slot.filler (tail.map (·.filler))) := by
      intro slot
      unfold Callable.valueDemand Callable.valueOf
      split
      · exact (meets_variadic parameter.type tail).map Value.list
      · exact meets_single slot parameter.type
    unfold Callable.valuesDemand Callable.values
    cases slots with
    | nil => exact (hone (Source.byType s)).bind fun value => (ih []).bind_pure (value :: ·)
    | cons slot more => exact (hone slot).bind fun value => (ih more).bind_pure (value :: ·)

/-! ### Calls -/

theorem meets_script {owner : String} {script : Script α} {p : Prop}
    (ha : ∀ c : Container, c.phase = .refreshing → c.Aside (script.exec c).2)
    (hp : p → script.Succeeds store) : s.Meets (.given p) (Run.ofScript owner .call script) := by
  refine .of_exec fun c hc => ?_
  rw [Run.exec_ofScript]
  refine ⟨ha c (s.kept hc).phase, ?_, fun h => ?_⟩
  · rcases (script.exec c).1 with upset | a
    · rfl
    · trivial
  · obtain ⟨a, d, hx⟩ := hp h c (s.kept hc).store (s.kept hc).phase
    exact ⟨a, by rw [hx]; rfl⟩

theorem beside_body (callable : Callable) (values : List Value) (c : Container) :
    c.Beside ((callable.body values).exec c).2 := by
  unfold Callable.body
  cases callable.run values <;> exact .refl c

theorem meets_callFor (callable : Callable) (wanted : TypeName)
    (arguments : List (Placing (Source s))) :
    s.Meets (callable.callDemand (last.outlook store) wanted
        (arguments.map (Placing.map (·.offer))))
      (callable.callFor s.injector wanted (arguments.map (Placing.map (·.filler)))) := by
  have ho := callable.place_map (fun source : Source s => source.offer) (Source.byType s) arguments
  have hf := callable.place_map (fun source : Source s => source.filler) (Source.byType s) arguments
  change callable.place (Offer.byType (last.outlook store)) _ = _ at ho
  change callable.place (Filler.byType s.injector) _ = _ at hf
  unfold Callable.callDemand Callable.callFor
  rw [ho, hf]
  rcases callable.place (Source.byType s) arguments with reason | placement
  · exact .throw id rfl
  · have hcall : ∀ values, s.Meets
        (.given (∀ values, (callable.body values).Succeeds (last.outlook store).store))
        (Run.ofScript callable.name .call (callable.body values)) :=
      fun values => meets_script (fun c _ => (beside_body callable values c).aside) fun h => h values
    refine Meets.bind (Meets.called _ ((meets_values _ _ _).bind hcall)) fun value => ?_
    by_cases hw : callable.output = wanted
    · rw [if_pos hw]
      exact (Meets.pure value).imp rfl fun _ => trivial
    · rw [if_neg hw]
      exact .throw hw rfl

/-! ### Arguments -/

theorem exec_isGiven (condition : Option Condition) {c : Container} (hc : c.Kept last store) :
    (Arg.isGiven condition).exec c =
      ((condition.map (last.outlook store).holds).getD (.ok true), c) := by
  cases condition with
  | none => rfl
  | some condition =>
    unfold Arg.isGiven
    rw [Condition.exec_decideNow, hc.holds]
    rfl

mutual

/-- **An argument gives what it offers.** -/
theorem offers_arg : ∀ (argument : Arg) (type : ParamType),
    s.Offers (argument.offer (last.outlook store) type) (argument.filler s.injector type)
  | .value type fixed, wanted => by
    unfold Arg.offer Arg.filler
    by_cases ht : type = wanted.name
    · have hm : s.Meets (.given (type = wanted.name)) (pure fixed) :=
        (Meets.pure fixed).imp rfl fun _ => trivial
      rw [if_pos ht]
      exact hm.offers
    · have hm : s.Meets (.given (type = wanted.name))
          (throw (.usage (.wrongValue wanted.name.text)) : Run Value) := .throw ht rfl
      rw [if_neg ht]
      exact hm.offers
  | .nil, wanted => by
    unfold Arg.offer Arg.filler
    exact (s.meets_fromNothing wanted).offers
  | .expression text, wanted => by
    unfold Arg.offer Arg.filler
    split
    · exact (s.meets_fromProperty text wanted).offers
    · have hplain := AutowireTag.plain_parse text
      generalize AutowireTag.parse text = result at hplain ⊢
      rcases result with fault | tag
      · exact (Meets.throw id (Fault.isLocal_of_isPlain hplain)).offers
      · exact (s.meets_fromBeans tag wanted).offers
  | .bean tag, wanted => by
    unfold Arg.offer Arg.filler
    exact (s.meets_fromBeans tag wanted).offers
  | .index _ argument, wanted => by
    unfold Arg.offer Arg.filler
    exact offers_arg argument wanted
  | .option callable arguments condition, wanted => by
    unfold Arg.offer Arg.filler
    obtain ⟨sources, hf, ho⟩ := sources_args arguments
    rw [hf, ho]
    have hcall := (meets_callFor callable wanted.name sources).offers
    intro c hc
    rw [Run.exec_bind, exec_isGiven condition (s.kept hc)]
    cases condition with
    | none => exact hcall c hc
    | some condition =>
      have hlocal : Local ((last.outlook store).holds condition) := last.local_holds store condition
      dsimp only [Option.map_some, Option.getD_some]
      generalize (last.outlook store).holds condition = decision at hlocal ⊢
      match decision with
      | .ok true => exact hcall c hc
      | .ok false =>
        refine ⟨.nothing hc, ?_⟩
        intro value d hr
        cases hr
        rfl
      | .error fault => exact ⟨.unmet id hlocal hc, fun value d hr => nomatch hr⟩
  | .call callable arguments, wanted => by
    unfold Arg.offer Arg.filler
    obtain ⟨sources, hf, ho⟩ := sources_args arguments
    rw [hf, ho]
    exact (meets_callFor callable wanted.name sources).offers

theorem sources_args : ∀ arguments : List Arg, ∃ sources : List (Placing (Source s)),
    Arg.fillers s.injector arguments = sources.map (Placing.map (·.filler)) ∧
      Arg.offers (last.outlook store) arguments = sources.map (Placing.map (·.offer))
  | [] => ⟨[], by simp [Arg.fillers], by simp [Arg.offers]⟩
  | argument :: rest => by
    obtain ⟨sources, hf, ho⟩ := sources_args rest
    refine ⟨argument.asking ⟨_, _, offers_arg argument⟩ :: sources, ?_, ?_⟩
    · rw [Arg.fillers, hf, List.map_cons, Arg.asking_map]
    · rw [Arg.offers, ho, List.map_cons, Arg.asking_map]

end

/-- What an argument gives. -/
def Source.ofArg (s : Supply last store) (argument : Arg) : Source s :=
  ⟨_, _, offers_arg argument⟩

/-- The parameters of a constructor get what they demand. -/
theorem meets_parameters (params : List Parameter) (arguments : Placement Arg) :
    s.Meets (Callable.valuesDemand (.byType (last.outlook store))
        (arguments.map (Arg.offer (last.outlook store))).tail params
        (arguments.map (Arg.offer (last.outlook store))).slots)
      (Callable.values (.byType s.injector) (arguments.map (Arg.filler s.injector)).tail params
        (arguments.map (Arg.filler s.injector)).slots) := by
  have hm := meets_values (arguments.tail.map (Source.ofArg s)) params
    (arguments.slots.map (Source.ofArg s))
  rw [List.map_map, List.map_map, List.map_map, List.map_map] at hm
  exact hm

/-! ### Fields -/

theorem meets_step (owner : String) (definition : Definition) (step : FieldStep) :
    s.Meets (step.demand (last.outlook store) definition)
      (step.run s.injector owner definition) := by
  cases step with
  | announce =>
    exact .of_exec fun c _ => ⟨c.aside_note rfl, trivial, fun _ => ⟨none, rfl⟩⟩
  | value name tag validator schema =>
    have htarget : PlainFaults (FieldStep.target definition.type name tag validator) :=
      (Target.reading_ofTag tag).plain.bind fun _ => trivial
    refine .of_exec fun c hc => ?_
    unfold FieldStep.run
    rw [Run.exec_bind, Run.exec_ofExcept]
    generalize hresult : FieldStep.target definition.type name tag validator = result at htarget
    rcases result with fault | target
    · exact ⟨.refl c, htarget.isLocal, fun ⟨_, _, ht, _⟩ => nomatch ht⟩
    · have hdata := store.plain_bindTo target schema
      dsimp only
      rw [Run.exec_get_bind, (s.kept hc).store, Run.exec_bind, Run.exec_ofExcept]
      generalize hbind : store.bindTo target schema = bound at hdata
      rcases bound with fault | data
      · refine ⟨.refl c, hdata.isLocal, fun ⟨target', data, ht, hd⟩ => ?_⟩
        cases ht
        rw [show (last.outlook store).store = store from rfl, hbind] at hd
        cases hd
      · exact ⟨.refl c, trivial, fun _ => ⟨_, rfl⟩⟩
  | autowire name tag injection =>
    have hplain := AutowireTag.plain_parse tag
    simp only [FieldStep.demand, FieldStep.run]
    generalize AutowireTag.parse tag = result at hplain ⊢
    rcases result with fault | tag
    · exact .throw id (Fault.isLocal_of_isPlain hplain)
    · exact (s.meets_fill tag injection).bind_pure fun value => some (name, value)
  | logger name => exact .pure _
  | find name selector =>
    refine .of_exec fun c hc => ?_
    unfold FieldStep.run
    have hfind : (Context.find selector).exec c = (.error (.usage .notRefreshed), c) :=
      Context.exec_refused (by rw [(s.kept hc).phase]; rfl)
    rw [Run.exec_bind, Run.exec_outcome, hfind]
    exact ⟨.refl c, trivial, fun _ => ⟨_, rfl⟩⟩
  | property name key => exact .of_exec fun c _ => ⟨.refl c, trivial, fun _ => ⟨_, rfl⟩⟩
  | shutdown =>
    exact .of_exec fun c _ => ⟨c.aside_requestShutdown, trivial, fun _ => ⟨none, rfl⟩⟩
  | fail reason => exact .throw id rfl
  | panic reason => exact .throw id rfl

/-- **Fields get what they demand.** -/
theorem meets_steps (owner : String) (definition : Definition) (steps : List FieldStep) :
    s.Meets (FieldStep.demands (last.outlook store) definition steps)
      (FieldStep.runAll s.injector owner definition steps) := by
  induction steps with
  | nil => exact .pure _
  | cons step rest ih =>
    exact (meets_step owner definition step).bind fun field =>
      ih.bind_pure (field.toList ++ ·)

end Supply

end BeanContainer
