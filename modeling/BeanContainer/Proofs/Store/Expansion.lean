/-
# Plain expansion

Plain expansion goes through a text from the left to the right and puts the stored text, or else the
default, in the place of each placeholder, whatever it went through before; so it need not come to an
end. `Store.resolve` does: it has the outcome of the plain expansion where there is one, and a
circular reference where there is none.

Key definitions: `Expansion`, `Store.placed?`, `Store.step`, `Store.plain?`, `Store.Follows`.
Key theorems: `Store.endless_of_comes`, `Store.expand_follows`, `Store.resolve_exact`.
-/
import BeanContainer.Store.Expansion
import Mathlib.Data.Nat.Notation

namespace BeanContainer

/-- A plain expansion under way: the text that is written so far, and the templates that are still
to be expanded, each with the text that it is part of. -/
structure Expansion where
  written : String
  pending : List (String × Template)

namespace Store

variable (store : Store)

/-- What stands at the key of a placeholder in the text `whole`: a text, or nothing, or no text. -/
def placed? (whole key : String) : Except Fault (Option String) :=
  if key.isEmpty then .error (.invalidTemplate whole)
  else match Key.split key with
    | .error fault => .error fault
    | .ok _ =>
      match store.node? key with
      | none => .ok none
      | some (.value text) => .ok (some text)
      | some node => .error (.binding key (.notText node.kind))

/-- One step of a plain expansion, or its outcome. -/
def step : Expansion → Expansion ⊕ Except Fault String
  | ⟨written, []⟩ => .inr (.ok written)
  | ⟨written, (_, .done) :: more⟩ => .inl ⟨written, more⟩
  | ⟨_, (whole, .unclosed) :: _⟩ => .inr (.error (.invalidTemplate whole))
  | ⟨written, (whole, .literal text rest) :: more⟩ => .inl ⟨written ++ text, (whole, rest) :: more⟩
  | ⟨written, (whole, .required key rest) :: more⟩ =>
    match store.placed? whole key with
    | .error fault => .inr (.error fault)
    | .ok none => .inr (.error (.missingProperty key))
    | .ok (some text) => .inl ⟨written, (text, .ofText text) :: (whole, rest) :: more⟩
  | ⟨written, (whole, .defaulted key text default rest) :: more⟩ =>
    match store.placed? whole key with
    | .error fault => .inr (.error fault)
    | .ok none => .inl ⟨written, (text, default) :: (whole, rest) :: more⟩
    | .ok (some text) => .inl ⟨written, (text, .ofText text) :: (whole, rest) :: more⟩

/-- The outcome of an expansion, if it comes to its end in `steps` steps. -/
def outcome? : (steps : ℕ) → Expansion → Option (Except Fault String)
  | 0, _ => none
  | steps + 1, expansion =>
    match store.step expansion with
    | .inl next => outcome? steps next
    | .inr outcome => some outcome

/-- The outcome of the plain expansion of a text, if it comes to its end in `steps` steps. -/
def plain? (steps : ℕ) (text : String) : Option (Except Fault String) :=
  store.outcome? steps ⟨"", [(text, .ofText text)]⟩

variable {store} {chain : List String} {whole key text : String} {template : Template}
  {e e' : Expansion}

/-! ### Steps -/

theorem outcome?_succ_of_step (h : store.step e = .inl e') (steps : ℕ) :
    store.outcome? (steps + 1) e = store.outcome? steps e' := by
  rw [outcome?, h]

theorem outcome?_mono {steps : ℕ} {outcome : Except Fault String}
    (h : store.outcome? steps e = some outcome) (more : ℕ) :
    store.outcome? (steps + more) e = some outcome := by
  induction steps generalizing e with
  | zero => cases h
  | succ steps ih =>
    rw [Nat.succ_add]
    unfold outcome? at h ⊢
    rcases hs : store.step e with next | result
    · rw [hs] at h
      exact ih h
    · rw [hs] at h
      exact h

/-- From `e` the expansion comes to `e'`, in `cost` steps. -/
def Leads (store : Store) (cost : ℕ) (e e' : Expansion) : Prop :=
  ∀ steps, store.outcome? (steps + cost) e = store.outcome? steps e'

theorem Leads.of_step (h : store.step e = .inl e') : store.Leads 1 e e' :=
  outcome?_succ_of_step h

theorem Leads.trans {cost cost' : ℕ} {e'' : Expansion} (h : store.Leads cost e e')
    (h' : store.Leads cost' e' e'') : store.Leads (cost' + cost) e e'' := fun steps => by
  rw [← Nat.add_assoc, h, h']

section

variable (store) (whole : String) (template : Template)

/-- The expansion of the template gives the text, whatever is to be done after it. -/
def Gives (text : String) : Prop :=
  ∀ written more, ∃ cost,
    store.Leads cost ⟨written, (whole, template) :: more⟩ ⟨written ++ text, more⟩

/-- The expansion of the template stops with the fault. -/
def Stops (fault : Fault) : Prop :=
  ∀ written more, ∃ steps,
    store.outcome? steps ⟨written, (whole, template) :: more⟩ = some (.error fault)

/-- The expansion of the template comes to that of the stored text `text`, and not at once. -/
def Comes (text : String) : Prop :=
  ∀ written more, ∃ cost written' more', store.Leads (cost + 1)
    ⟨written, (whole, template) :: more⟩ ⟨written', (text, .ofText text) :: more'⟩

/-- The expansion of the front of the template gives `value`, and `rest` is left. -/
def Advances (value : String) (rest : Template) : Prop :=
  ∀ written more, ∃ cost, store.Leads cost
    ⟨written, (whole, template) :: more⟩ ⟨written ++ value, (whole, rest) :: more⟩

/-- In place of the front of the template the template `inner` of another text is expanded. -/
def Enters (text : String) (inner rest : Template) : Prop :=
  ∀ written more, store.step ⟨written, (whole, template) :: more⟩ =
    .inl ⟨written, (text, inner) :: (whole, rest) :: more⟩

end

/-- The expansion of a text that comes to itself has no end. -/
theorem endless_of_comes (h : store.Comes text (.ofText text) text) (steps : ℕ) :
    ∀ written more, store.outcome? steps ⟨written, (text, .ofText text) :: more⟩ = none := by
  induction steps using Nat.strongRecOn with
  | ind steps ih =>
    intro written more
    obtain ⟨cost, written', more', hl⟩ := h written more
    rcases Nat.lt_or_ge steps (cost + 1) with hlt | hge
    · -- an expansion that ends so soon would have ended after `cost + 1` steps too
      rcases ho : store.outcome? steps ⟨written, (text, .ofText text) :: more⟩ with _ | outcome
      · rfl
      · have hm := outcome?_mono ho (cost + 1 - steps)
        rw [Nat.add_sub_of_le (Nat.le_of_lt hlt), ← Nat.zero_add (cost + 1), hl] at hm
        cases hm
    · obtain ⟨rest, rfl⟩ := Nat.exists_eq_add_of_le' hge
      rw [hl]
      exact ih rest (by omega) written' more'

theorem Comes.endless (h : store.Comes whole template text)
    (h' : store.Comes text (.ofText text) text) (steps : ℕ) (written : String)
    (more : List (String × Template)) :
    store.outcome? steps ⟨written, (whole, template) :: more⟩ = none := by
  obtain ⟨cost, written', more', hl⟩ := h written more
  rcases ho : store.outcome? steps ⟨written, (whole, template) :: more⟩ with _ | outcome
  · rfl
  · have hm := outcome?_mono ho (cost + 1)
    rw [hl, endless_of_comes h'] at hm
    cases hm

/-! ### Parts of a template -/

section

variable {value : String} {inner rest : Template} {fault : Fault}

theorem Advances.gives (h : store.Advances whole template value rest)
    (h' : store.Gives whole rest text) : store.Gives whole template (value ++ text) := by
  intro written more
  obtain ⟨cost, hl⟩ := h written more
  obtain ⟨cost', hl'⟩ := h' (written ++ value) more
  rw [String.append_assoc] at hl'
  exact ⟨_, hl.trans hl'⟩

theorem Advances.stops (h : store.Advances whole template value rest)
    (h' : store.Stops whole rest fault) : store.Stops whole template fault := by
  intro written more
  obtain ⟨cost, hl⟩ := h written more
  obtain ⟨steps, ho⟩ := h' (written ++ value) more
  exact ⟨_, (hl steps).trans ho⟩

theorem Advances.comes (h : store.Advances whole template value rest)
    (h' : store.Comes whole rest text) : store.Comes whole template text := by
  intro written more
  obtain ⟨cost, hl⟩ := h written more
  obtain ⟨cost', written', more', hl'⟩ := h' (written ++ value) more
  exact ⟨cost' + cost, written', more', Nat.add_right_comm cost' 1 cost ▸ hl.trans hl'⟩

theorem Enters.advances (h : store.Enters whole template text inner rest)
    (h' : store.Gives text inner value) : store.Advances whole template value rest := by
  intro written more
  obtain ⟨cost, hl⟩ := h' written ((whole, rest) :: more)
  exact ⟨_, (Leads.of_step (h written more)).trans hl⟩

theorem Enters.stops (h : store.Enters whole template text inner rest)
    (h' : store.Stops text inner fault) : store.Stops whole template fault := by
  intro written more
  obtain ⟨steps, ho⟩ := h' written ((whole, rest) :: more)
  exact ⟨_, (Leads.of_step (h written more) steps).trans ho⟩

theorem Enters.comes {goal : String} (h : store.Enters whole template text inner rest)
    (h' : store.Comes text inner goal) : store.Comes whole template goal := by
  intro written more
  obtain ⟨cost, written', more', hl⟩ := h' written ((whole, rest) :: more)
  exact ⟨cost + 1, written', more', (Leads.of_step (h written more)).trans hl⟩

theorem Enters.comes_ofText (h : store.Enters whole template text (.ofText text) rest) :
    store.Comes whole template text := fun written more =>
  ⟨0, written, (whole, rest) :: more, Leads.of_step (h written more)⟩

theorem gives_done (store : Store) (whole : String) : store.Gives whole .done "" := by
  intro written more
  refine ⟨1, Leads.of_step ?_⟩
  rw [String.append_empty]
  rfl

end

/-! ### Expansion with a chain of keys -/

/-- What plain expansion makes of the outcome of an expansion with a chain of keys. -/
inductive Follows (store : Store) (chain : List String) (whole : String) (template : Template) :
    Except Fault String → Prop
  | ends {text : String} : store.Gives whole template text → Follows store chain whole template (.ok text)
  | stops {fault : Fault} : (∀ cycle, fault ≠ .circularReference cycle) →
      store.Stops whole template fault → Follows store chain whole template (.error fault)
  /-- It comes back to the text of a key on the chain. -/
  | returns {key text : String} {cycle : List String} : key ∈ chain →
      store.node? key = some (.value text) → store.Comes whole template text →
      Follows store chain whole template (.error (.circularReference cycle))
  /-- It comes to a text that comes to itself. -/
  | loops {text : String} {cycle : List String} : store.Comes whole template text →
      store.Comes text (.ofText text) text →
      Follows store chain whole template (.error (.circularReference cycle))

section

variable {value : String} {inner rest : Template} {fault : Fault}
  {result behind : Except Fault String}

theorem Follows.after (h : store.Follows chain whole rest behind)
    (ha : store.Advances whole template value rest) :
    store.Follows chain whole template (behind.map (value ++ ·)) := by
  cases h with
  | ends hg => exact .ends (ha.gives hg)
  | stops hn hs => exact .stops hn (ha.stops hs)
  | returns hk hv hc => exact .returns hk hv (ha.comes hc)
  | loops hc hl => exact .loops (ha.comes hc) hl

/-- The front of a template, and then its rest. -/
theorem Follows.into (h : store.Follows chain text inner result)
    (h' : store.Follows chain whole rest behind)
    (he : store.Enters whole template text inner rest) :
    store.Follows chain whole template
      (result.bind fun value => behind.bind fun more => .ok (value ++ more)) := by
  cases h with
  | @ends value hg => exact h'.after (he.advances hg)
  | stops hn hs => exact .stops hn (he.stops hs)
  | returns hk hv hc => exact .returns hk hv (he.comes hc)
  | loops hc hl => exact .loops (he.comes hc) hl

/-- A template in whose place another one is expanded, and nothing behind it. -/
theorem Follows.instead (h : store.Follows chain text inner result)
    (he : store.Enters whole template text inner .done) :
    store.Follows chain whole template result := by
  have hi := h.into (.ends (gives_done store whole)) he
  rcases result with fault | value
  · exact hi
  · have hs : (value ++ "" : String) = value := String.append_empty
    simpa only [Except.bind, hs] using hi

/-- A text that comes back to its own key comes to itself. -/
theorem Follows.of_concat (h : store.Follows (chain ++ [key]) text (.ofText text) result)
    (hv : store.node? key = some (.value text)) :
    store.Follows chain text (.ofText text) result := by
  cases h with
  | ends hg => exact .ends hg
  | stops hn hs => exact .stops hn hs
  | loops hc hl => exact .loops hc hl
  | returns hk hv' hc =>
    rcases List.mem_append.mp hk with hk | hk
    · exact .returns hk hv' hc
    · rw [List.mem_singleton.mp hk, hv] at hv'
      cases hv'
      exact .loops hc hc

end

theorem placed?_ne_circular (whole key : String) (cycle : List String) :
    store.placed? whole key ≠ .error (.circularReference cycle) := by
  unfold placed? Key.split
  split
  · nofun
  · rcases Key.segments? key.toList with _ | segments
    · nofun
    · dsimp only
      split <;> nofun

/-- The chain of keys changes what stands at a placeholder for the keys on it alone. -/
theorem stored?_cases (store : Store) (chain : List String) (whole key : String) :
    store.stored? chain whole key = store.placed? whole key ∨
      key ∈ chain ∧ store.stored? chain whole key = .error (.circularReference (chain ++ [key])) ∧
        ∀ text, store.node? key = some (.value text) → store.placed? whole key = .ok (some text) := by
  unfold stored? placed?
  split
  · exact .inl rfl
  · rcases Key.split key with fault | segments
    · exact .inl rfl
    · dsimp only
      split
      · next hk =>
        refine .inr ⟨hk, rfl, fun text hv => ?_⟩
        rw [hv]
      · exact .inl rfl

/-! ### Both expansions compared -/

theorem step_required (key : String) (rest : Template) (written : String)
    (more : List (String × Template)) :
    store.step ⟨written, (whole, .required key rest) :: more⟩ =
      match store.placed? whole key with
      | .error fault => .inr (.error fault)
      | .ok none => .inr (.error (.missingProperty key))
      | .ok (some text) => .inl ⟨written, (text, .ofText text) :: (whole, rest) :: more⟩ := rfl

theorem step_defaulted (key text : String) (default rest : Template) (written : String)
    (more : List (String × Template)) :
    store.step ⟨written, (whole, .defaulted key text default rest) :: more⟩ =
      match store.placed? whole key with
      | .error fault => .inr (.error fault)
      | .ok none => .inl ⟨written, (text, default) :: (whole, rest) :: more⟩
      | .ok (some text) => .inl ⟨written, (text, .ofText text) :: (whole, rest) :: more⟩ := rfl

theorem Stops.of_step {fault : Fault} (h : ∀ written more,
    store.step ⟨written, (whole, template) :: more⟩ = .inr (.error fault)) :
    store.Stops whole template fault := fun written more =>
  ⟨1, by rw [outcome?, h]⟩

/-- A placeholder of the key stands in front of `rest`. -/
structure Opens (store : Store) (whole : String) (template : Template) (key : String)
    (rest : Template) : Prop where
  stops {fault : Fault} : store.placed? whole key = .error fault → store.Stops whole template fault
  enters {text : String} : store.placed? whole key = .ok (some text) →
    store.Enters whole template text (.ofText text) rest

theorem opens_required (key : String) (rest : Template) :
    store.Opens whole (.required key rest) key rest where
  stops h := .of_step fun written more => by rw [step_required, h]
  enters h written more := by rw [step_required, h]

theorem opens_defaulted (key text : String) (default rest : Template) :
    store.Opens whole (.defaulted key text default rest) key rest where
  stops h := .of_step fun written more => by rw [step_defaulted, h]
  enters h written more := by rw [step_defaulted, h]

section

variable {rest : Template}

/-- A placeholder that stops the expansion with a chain of keys stops the plain one, or it leads
back to the text of a key on the chain. -/
theorem Opens.follows_error {fault : Fault} (h : store.Opens whole template key rest)
    (hc : ∀ key ∈ chain, ∃ text, store.node? key = some (.value text))
    (hs : store.stored? chain whole key = .error fault) :
    store.Follows chain whole template (.error fault) := by
  rcases stored?_cases store chain whole key with hp | ⟨hk, hr, hp⟩
  · rw [hs] at hp
    refine .stops ?_ (h.stops hp.symm)
    rintro cycle rfl
    exact placed?_ne_circular whole key cycle hp.symm
  · rw [hs] at hr
    cases hr
    obtain ⟨text, hv⟩ := hc key hk
    exact .returns hk hv (h.enters (hp text hv)).comes_ofText

/-- A placeholder that gives way to a stored text, whose key goes on the chain. -/
theorem Opens.follows_bind {result behind : Except Fault String}
    (h : store.Opens whole template key rest)
    (hs : store.stored? chain whole key = .ok (some text))
    (ht : store.Follows (chain ++ [key]) text (.ofText text) result)
    (hr : store.Follows chain whole rest behind) :
    store.Follows chain whole template
      (result.bind fun value => behind.bind fun more => .ok (value ++ more)) := by
  rcases stored?_cases store chain whole key with hp | ⟨hk, -, -⟩
  · rw [hs] at hp
    exact (ht.of_concat (stored?_some hs).2).into hr (h.enters hp.symm)
  · exact absurd hk (stored?_some hs).1

end

theorem placed?_of_stored? (hs : store.stored? chain whole key = .ok none) :
    store.placed? whole key = .ok none := by
  rcases stored?_cases store chain whole key with hp | ⟨-, hr, -⟩
  · rw [← hp, hs]
  · rw [hs] at hr
    cases hr

theorem texts_concat (hc : ∀ key ∈ chain, ∃ text, store.node? key = some (.value text))
    (hv : store.node? key = some (.value text)) :
    ∀ other ∈ chain ++ [key], ∃ text, store.node? other = some (.value text) := by
  intro other hk
  rcases List.mem_append.mp hk with hk | hk
  · exact hc other hk
  · rw [List.mem_singleton.mp hk]
    exact ⟨text, hv⟩

theorem expand_follows (store : Store) (chain : List String) (whole : String) (template : Template)
    (known : chain ≠ [] → ∀ key ∈ template.keys, key ∈ store.mentions)
    (hc : ∀ key ∈ chain, ∃ text, store.node? key = some (.value text)) :
    store.Follows chain whole template (store.expand chain whole template known) := by
  fun_induction Store.expand store chain whole template known with
  | case1 chain whole => exact .ends (gives_done store whole)
  | case2 => exact .stops (fun cycle => nofun) (.of_step fun written more => rfl)
  | case3 chain whole text rest _ _ ih =>
    exact (ih hc).after fun written more => ⟨1, Leads.of_step rfl⟩
  | case4 chain whole key rest _ fault hs => exact (opens_required key rest).follows_error hc hs
  | case5 chain whole key rest _ hs =>
    refine .stops (fun cycle => nofun) (.of_step fun written more => ?_)
    rw [step_required, placed?_of_stored? hs]
  | case6 chain whole key rest _ text hs _ _ ih ihr =>
    exact (opens_required key rest).follows_bind hs (ih (texts_concat hc (stored?_some hs).2)) (ihr hc)
  | case7 chain whole key text default rest _ fault hs =>
    exact (opens_defaulted key text default rest).follows_error hc hs
  | case8 chain whole key text default rest _ hs _ ih ihr =>
    refine (ih hc).into (ihr hc) fun written more => ?_
    rw [step_defaulted, placed?_of_stored? hs]
  | case9 chain whole key text default rest _ value hs _ _ ih ihr =>
    exact (opens_defaulted key text default rest).follows_bind hs
      (ih (texts_concat hc (stored?_some hs).2)) (ihr hc)

/-! ### The outcome of a plain expansion -/

theorem plain?_unique {text : String} {n m : ℕ} {result other : Except Fault String}
    (h : store.plain? n text = some result) (h' : store.plain? m text = some other) :
    result = other := by
  have hn := outcome?_mono h m
  have hm := outcome?_mono h' n
  rw [Nat.add_comm] at hm
  rw [hn] at hm
  exact Option.some.inj hm

theorem resolve_follows (store : Store) (text : String) :
    store.Follows [] text (.ofText text) (store.resolve text) :=
  expand_follows store [] text (.ofText text) _ nofun

/-- A result that the plain expansion of a text follows is its outcome; it is a circular reference if
the expansion has no end. -/
theorem Follows.plain? {text : String} {result : Except Fault String}
    (h : store.Follows [] text (.ofText text) result) :
    (∃ n, store.plain? n text = some result) ∧
        (∀ cycle, result ≠ .error (.circularReference cycle)) ∨
      (∀ n, store.plain? n text = none) ∧ ∃ cycle, result = .error (.circularReference cycle) := by
  cases h with
  | ends hg =>
    obtain ⟨cost, hl⟩ := hg "" []
    refine .inl ⟨⟨1 + cost, (hl 1).trans ?_⟩, fun cycle => nofun⟩
    rw [String.empty_append]
    rfl
  | stops hn hs => exact .inl ⟨hs "" [], fun cycle hr => hn cycle (Except.error.inj hr)⟩
  | returns hk => cases hk
  | loops hc hl => exact .inr ⟨fun n => hc.endless hl n "" [], _, rfl⟩

/-- Results that the plain expansion of one text follows are equal, up to where a circle of references
is entered. -/
theorem Follows.unique {text : String} {result other : Except Fault String}
    (h : store.Follows [] text (.ofText text) result)
    (h' : store.Follows [] text (.ofText text) other) :
    result = other ∨ ∃ cycle cycle', result = .error (.circularReference cycle) ∧
      other = .error (.circularReference cycle') := by
  rcases h.plain? with ⟨⟨n, hn⟩, -⟩ | ⟨hn, cycle, hc⟩
  · rcases h'.plain? with ⟨⟨m, hm⟩, -⟩ | ⟨hm, -⟩
    · exact .inl (plain?_unique hn hm)
    · rw [hm n] at hn
      cases hn
  · rcases h'.plain? with ⟨⟨m, hm⟩, -⟩ | ⟨-, cycle', hc'⟩
    · rw [hn m] at hm
      cases hm
    · exact .inr ⟨cycle, cycle', hc, hc'⟩

/-- The plain expansion of a text ends with what the text resolves to; it has no end if that is a
circular reference. -/
theorem plain?_resolve (store : Store) (text : String) :
    (∃ n, store.plain? n text = some (store.resolve text)) ∧
        (∀ cycle, store.resolve text ≠ .error (.circularReference cycle)) ∨
      (∀ n, store.plain? n text = none) ∧
        ∃ cycle, store.resolve text = .error (.circularReference cycle) :=
  (resolve_follows store text).plain?

/-- Where the plain expansion of a text comes to its end, the text resolves to its outcome. -/
theorem resolve_of_plain? {text : String} {n : ℕ} {result : Except Fault String}
    (h : store.plain? n text = some result) : store.resolve text = result := by
  rcases plain?_resolve store text with ⟨⟨m, hm⟩, -⟩ | ⟨hn, -⟩
  · exact plain?_unique hm h
  · rw [hn n] at h
    cases h

/-- Resolving a text gives what its plain expansion comes to, and a circular reference when the
plain expansion has no end. -/
theorem resolve_exact (store : Store) (text : String) :
    (∀ result, (∃ n, store.plain? n text = some result) → store.resolve text = result) ∧
      ((∃ cycle, store.resolve text = .error (.circularReference cycle)) ↔
        ∀ n, store.plain? n text = none) := by
  rcases plain?_resolve store text with ⟨⟨n, hn⟩, hc⟩ | ⟨hn, cycle, hc⟩
  · refine ⟨fun result hr => ?_, fun ⟨cycle, h⟩ => absurd h (hc cycle), fun h => ?_⟩
    · obtain ⟨m, hm⟩ := hr
      exact plain?_unique hn hm
    · rw [h n] at hn
      cases hn
  · refine ⟨fun result hr => ?_, fun _ => hn, fun _ => ⟨cycle, hc⟩⟩
    obtain ⟨m, hm⟩ := hr
    rw [hn m] at hm
    cases hm

end Store
end BeanContainer
