/-
# Lists that are written with commas

A list is bound from an array, or from a text with commas. The pieces of the text are bound as defaults
of elements that are not stored, and so each of them is expanded a second time. Where no placeholder is
left in the expanded text the list is made of its pieces; and items that have no placeholders are bound
from a text with commas as they are from an array.

Key theorems: `Schema.itemTargets_of_source`, `Schema.source_piece`, `Store.bindTo_texts`,
`Store.bindTo_commaList`.
-/
import BeanContainer.Proofs.Binding.Expression
import BeanContainer.Proofs.Binding.Relative
import BeanContainer.Proofs.Store.Subtree
import BeanContainer.Proofs.Text.Pieces

namespace BeanContainer

/-! ### Lists element by element -/

theorem forall₂_mapIdx_self {α β : Type} {R : β → α → Prop} {f : ℕ → α → β} {as : List α}
    (h : ∀ index, ∀ a ∈ as[index]?, R (f index a) a) : List.Forall₂ R (as.mapIdx f) as := by
  have hs : as.mapIdx (fun _ a => a) = as := by
    rw [List.mapIdx_eq_zipIdx_map]
    exact List.zipIdx_map_fst 0 as
  have hall : List.Forall₂ R (as.mapIdx f) (as.mapIdx fun _ a => a) := forall₂_mapIdx h
  rwa [hs] at hall

theorem mapM_eq_of_forall₂ {α β γ : Type} {f : α → Except Fault γ} {g : β → Except Fault γ}
    {as : List α} {bs : List β} (h : List.Forall₂ (fun a b => f a = g b) as bs) :
    as.mapM f = bs.mapM g := by
  induction h with
  | nil => rfl
  | cons hab _ ih => rw [List.mapM_cons, List.mapM_cons, hab, ih]

theorem mapM_eq_ok_iff {α β : Type} {f : α → Except Fault β} {g : α → β} {as : List α} :
    as.mapM f = .ok (as.map g) ↔ ∀ a ∈ as, f a = .ok (g a) := by
  induction as with
  | nil => exact ⟨fun _ => nofun, fun _ => rfl⟩
  | cons a rest ih =>
    rw [List.forall_mem_cons, ← ih, List.mapM_cons, List.map_cons]
    rcases f a with fault | b
    · exact ⟨nofun, fun h => nomatch h.1⟩
    · rcases rest.mapM f with fault | bs
      · exact ⟨nofun, fun h => nomatch h.2⟩
      · show Except.ok (b :: bs) = .ok (g a :: rest.map g) ↔ _
        simp

namespace Schema

variable {store : Store} {target : Target} {text : String}

theorem bind_list {targets : List Target} (h : itemTargets store target = .ok targets)
    (item : Schema) : bind store target (.list item) =
      (targets.mapM fun target => item.bind store target).map Data.list := by
  rw [bind, h]
  show Except.bind (targets.mapM _) _ = Except.map Data.list (targets.mapM _)
  rcases targets.mapM _ with fault | datas <;> rfl

/-- The items of a list that is written in a text are targets of its pieces. -/
theorem itemTargets_of_source (h : target.Source store text) : itemTargets store target =
    (store.resolve text).map fun raw => (Text.pieces raw).mapIdx fun index piece =>
      target.element (Segment.ofIndex index).shown (some piece) := by
  have hraw := h.requiredValue
  have hpieces : (do
      let raw ← store.requiredValue target
      return (commaPieces raw).mapIdx fun index piece =>
        target.element (Segment.ofIndex index).shown (some piece)) =
      (store.resolve text).map fun raw => (Text.pieces raw).mapIdx fun index piece =>
        target.element (Segment.ofIndex index).shown (some piece) := by
    simp only [hraw, commaPieces_eq]
    rcases store.resolve text with fault | raw <;> rfl
  unfold itemTargets
  cases h with
  | stored h =>
    rw [h]
    exact hpieces
  | default h hd =>
    rw [h]
    exact hpieces

theorem itemTargets_of_resolve (h : target.Source store text) {raw : String}
    (hr : store.resolve text = .ok raw) : itemTargets store target =
      .ok ((Text.pieces raw).mapIdx fun index piece =>
        target.element (Segment.ofIndex index).shown (some piece)) := by
  rw [itemTargets_of_source h, hr]
  rfl

/-- The element of a piece stands for the piece, as nothing is stored below a text. -/
theorem source_piece (h : target.Source store text) (index : ℕ) (piece : String) :
    (target.element (Segment.ofIndex index).shown (some piece)).Source store piece := by
  refine .default (Store.node?_position_of_ne index fun children hc => ?_) rfl
  cases h with
  | stored h =>
    rw [h] at hc
    cases hc
  | default h hd =>
    rw [h] at hc
    cases hc

end Schema

namespace Store

variable {store : Store} {target : Target} {text : String}

/-! ### Lists of texts -/

/-- A list of texts is made of the pieces of its expanded text, each expanded once more. -/
theorem bind_texts (h : target.Source store text) {raw : String} (hr : store.resolve text = .ok raw) :
    Schema.bind store target (.list (.scalar .text)) =
      ((Text.pieces raw).mapM fun piece => (store.resolve piece).map Data.text).map Data.list := by
  rw [Schema.bind_list (Schema.itemTargets_of_resolve h hr)]
  refine congrArg (Except.map Data.list) (mapM_eq_of_forall₂ ?_)
  refine forall₂_mapIdx_self fun index piece _ => ?_
  rw [← bindTo_unguarded rfl, bindTo_text rfl, (Schema.source_piece h index piece).requiredValue]

/-- **What a list of texts is bound to** at a target with a text. It fails where a text is not bound
either, with the same fault. Else it is made of the pieces of that text, but each is expanded once more:
the list is made of the pieces themselves exactly when each of them stands for itself. They all do where
the text has no placeholder left, and it has none where neither the text nor a stored one has a dollar
sign outside of placeholders. -/
theorem bindTo_texts (h : target.Source store text) (hv : target.validator = none) :
    (∃ fault, store.bindTo target (.scalar .text) = .error fault ∧
      store.bindTo target (.list (.scalar .text)) = .error fault) ∨
    ∃ raw, store.bindTo target (.scalar .text) = .ok (.text raw) ∧
      store.bindTo target (.list (.scalar .text)) =
        ((Text.pieces raw).mapM fun piece => (store.resolve piece).map Data.text).map Data.list ∧
      (store.bindTo target (.list (.scalar .text)) = .ok (.list ((Text.pieces raw).map Data.text)) ↔
        ∀ piece ∈ Text.pieces raw, store.resolve piece = .ok piece) ∧
      (Template.Plain raw.toList → ∀ piece ∈ Text.pieces raw, store.resolve piece = .ok piece) ∧
      ((Template.ofText text).Undollared →
        (∀ key stored, store.node? key = some (.value stored) →
          (Template.ofText stored).Undollared) → Template.Plain raw.toList) := by
  have htext : store.bindTo target (.scalar .text) = (store.resolve text).map Data.text := by
    rw [bindTo_text hv, h.requiredValue]
  rcases hr : store.resolve text with fault | raw
  · rw [hr] at htext
    refine .inl ⟨fault, htext, ?_⟩
    rw [bindTo_unguarded hv, Schema.bind, Schema.itemTargets_of_source h, hr]
    rfl
  · rw [hr] at htext
    have hlist : store.bindTo target (.list (.scalar .text)) =
        ((Text.pieces raw).mapM fun piece => (store.resolve piece).map Data.text).map Data.list :=
      (bindTo_unguarded hv _).trans (bind_texts h hr)
    refine .inr ⟨raw, htext, hlist, ?_, fun hp piece hm => ?_, fun ht hs => ?_⟩
    · have htexts : ∀ piece, (store.resolve piece).map Data.text = .ok (.text piece) ↔
          store.resolve piece = .ok piece := fun piece => map_eq_ok_iff fun _ _ => Data.text.inj
      rw [hlist, map_eq_ok_iff fun _ _ => Data.list.inj, mapM_eq_ok_iff]
      simp only [htexts]
    · refine store.resolve_eq_self (Schema.plain_commaPieces hp ?_)
      rwa [Schema.commaPieces_eq]
    · have hnone := expand_undollared hs _ hr ht
      exact Template.plain_of_forall fun c hc hd => hnone (hd ▸ hc)

/-- A list with blanks, an empty piece and a property that gives a dollar sign. -/
theorem bindTo_texts_dollars :
    dollars.bindTo ⟨"list", some " a, $\x7bdollar\x7d,,b ", none, ""⟩ (.list (.scalar .text)) =
      .ok (.list [.text "a", .text "$", .text "", .text "b"]) := by
  have hsource : Target.Source dollars ⟨"list", some " a, $\x7bdollar\x7d,,b ", none, ""⟩
      " a, $\x7bdollar\x7d,,b " := .default (by cbv) rfl
  have hresolve : dollars.resolve " a, $\x7bdollar\x7d,,b " = .ok " a, $,,b " :=
    resolve_of_plain? (n := 10) (by cbv)
  have hpieces : Text.pieces " a, $,,b " = ["a", "$", "", "b"] := by decide
  have hplain : Template.Plain " a, $,,b ".toList := by
    unfold Template.Plain
    decide
  have htext : dollars.bindTo ⟨"list", some " a, $\x7bdollar\x7d,,b ", none, ""⟩ (.scalar .text) =
      .ok (.text " a, $,,b ") := by
    rw [bindTo_text rfl, hsource.requiredValue, hresolve]
    rfl
  rcases bindTo_texts hsource rfl with ⟨fault, ht, -⟩ | ⟨raw, ht, -, hlist, hself, -⟩
  · rw [htext] at ht
    cases ht
  · rw [htext] at ht
    cases ht
    rw [hlist.mpr (hself hplain), hpieces]
    rfl

/-- The store in which `list` is a placeholder that a dollar sign opens. -/
def opening : Store :=
  ⟨some (.map [(.name "dollar", .value "$"), (.name "list", .value "$\x7bdollar\x7d\x7bb:=c\x7d")])⟩

/-- The text of the list has one piece, but the list holds what that is expanded to. -/
theorem texts_twice :
    opening.bindTo ⟨"list", none, none, ""⟩ (.scalar .text) = .ok (.text "$\x7bb:=c\x7d") ∧
    Text.pieces "$\x7bb:=c\x7d" = ["$\x7bb:=c\x7d"] ∧
    opening.bindTo ⟨"list", none, none, ""⟩ (.list (.scalar .text)) = .ok (.list [.text "c"]) := by
  have hsource : Target.Source opening ⟨"list", none, none, ""⟩ "$\x7bdollar\x7d\x7bb:=c\x7d" :=
    .stored (by cbv)
  have honce : opening.resolve "$\x7bdollar\x7d\x7bb:=c\x7d" = .ok "$\x7bb:=c\x7d" :=
    resolve_of_plain? (n := 10) (by cbv)
  have htwice : opening.resolve "$\x7bb:=c\x7d" = .ok "c" := resolve_of_plain? (n := 10) (by cbv)
  have hpieces : Text.pieces "$\x7bb:=c\x7d" = ["$\x7bb:=c\x7d"] := by decide
  refine ⟨?_, hpieces, ?_⟩
  · rw [bindTo_text rfl, hsource.requiredValue, honce]
    rfl
  · rw [bindTo_unguarded rfl, bind_texts hsource honce, hpieces, List.mapM_cons, htwice]
    rfl

/-! ### Commas or positions -/

variable {schema : Schema} {key : String} {items : List String} {path : List Label}

/-- The items of a list of stored elements are targets at their positions. -/
theorem itemTargets_ofTexts (hn : store.node? target.key = some (.ofTexts items)) :
    Schema.itemTargets store target = .ok (items.mapIdx fun index _ =>
      target.element (Segment.ofIndex index).shown none) := by
  unfold Schema.itemTargets
  rw [hn]
  refine congrArg Except.ok ?_
  rw [List.mapIdx_eq_zipIdx_map, List.mapIdx_eq_zipIdx_map, List.map_map]
  rfl

theorem source_element (hk : Key.path? target.key = some path)
    (hlen : items.length ≤ Label.positionBound) {index : ℕ} {item : String}
    (hi : item ∈ items[index]?) :
    (target.element (Segment.ofIndex index).shown none).Source (holding path (.ofTexts items)) item := by
  refine .stored ?_
  show node? _ (Key.under target.key _) = _
  rw [node?_eq, Key.path?_under_position hk (valid_of_lt hlen hi), Option.bind_some, at?_append,
    at?_holding, Option.bind_some, Node.at?_ofTexts hi]

/-- A validator refuses a list before it looks at the store. -/
theorem bindTo_list_congr {store' : Store} {item : Schema}
    (h : Schema.bind store target (.list item) = Schema.bind store' target (.list item)) :
    store.bindTo target (.list item) = store'.bindTo target (.list item) := by
  unfold bindTo
  rw [h]
  rcases ht : Schema.itemTargets store' target with fault | targets
  · rw [Schema.bind, ht]
    rfl
  · rw [Schema.bind_list ht]
    rcases targets.mapM _ with fault | datas
    · rfl
    · show (do store.validate target (.list datas); _) = (do store'.validate target (.list datas); _)
      unfold validate
      rcases target.validator with _ | source
      · rfl
      · dsimp only
        rcases Predicate.parse source with fault | predicate <;> rfl

/-- A text with commas and an array of its items are bound alike. -/
theorem bindTo_holding (hs : schema.IsScalar) (hi : ∀ item ∈ items, Text.IsItem item) (hne : items ≠ [])
    (hone : items ≠ [""]) (hk : Key.path? target.key = some path)
    (hlen : items.length ≤ Label.positionBound) :
    (holding path (.value (",".intercalate items))).bindTo target (.list schema) =
      (holding path (.ofTexts items)).bindTo target (.list schema) := by
  have hsource : target.Source (holding path (.value (",".intercalate items)))
      (",".intercalate items) := .stored (node?_holding hk _)
  have hjoined : Schema.itemTargets (holding path (.value (",".intercalate items))) target =
      .ok (items.mapIdx fun index item =>
        target.element (Segment.ofIndex index).shown (some item)) := by
    rw [Schema.itemTargets_of_resolve hsource (resolve_eq_self _ (Text.plain_intercalate hi)),
      Text.pieces_intercalate hi hne hone]
  refine bindTo_list_congr ?_
  rw [Schema.bind_list hjoined, Schema.bind_list (itemTargets_ofTexts (node?_holding hk _))]
  refine congrArg (Except.map Data.list) (mapM_eq_of_forall₂ ?_)
  refine forall₂_mapIdx fun index item hm => ?_
  have hitem := (hi item (List.mem_of_getElem? hm)).plain
  exact hs.bind_congr ((Schema.source_piece hsource index item).gives (resolve_eq_self _ hitem))
    ((source_element hk hlen hm).gives (resolve_eq_self _ hitem)) rfl

/-- **Lists with commas are bound like arrays.** Where items without commas, placeholders and blanks
around them stand at a key, joined by commas, or each of them at its position, a list of scalars is bound
to the same data, or it fails with the same fault. Both stores exist, at every key of the store, for as
many items as there are positions. -/
theorem bindTo_commaList (hs : schema.IsScalar) (hi : ∀ item ∈ items, Text.IsItem item)
    (hne : items ≠ []) (hone : items ≠ [""]) (key : String) :
    (∀ joined indexed : Store, ofPairs [(key, ",".intercalate items)] = .ok joined →
      ofPairs (elements key items) = .ok indexed → ∀ target : Target, target.key = key →
        joined.bindTo target (.list schema) = indexed.bindTo target (.list schema)) ∧
    ∀ path, Key.path? key = some path → path ≠ [] → items.length ≤ Label.positionBound →
      (∃ joined, ofPairs [(key, ",".intercalate items)] = .ok joined) ∧
        ∃ indexed, ofPairs (elements key items) = .ok indexed := by
  refine ⟨?_, fun path hk hpath hlen => ⟨⟨_, ofPairs_singleton hk hpath _⟩,
    _, ofPairs_elements hk hne hlen⟩⟩
  rintro joined indexed hj hx target rfl
  have hlen := length_le_of_ofPairs hx
  obtain ⟨path, hk, hpath⟩ := path?_of_setAll hj _ (List.mem_singleton.mpr rfl)
  rw [ofPairs_singleton hk hpath] at hj
  rw [ofPairs_elements hk hne hlen] at hx
  cases hj
  cases hx
  exact bindTo_holding hs hi hne hone hk hlen

/-- Ports, of which the last one is none, whatever is asked of the list. -/
theorem bindTo_commaList_ports : ∃ joined indexed : Store,
    ofPairs [("server.ports", "80,443,http")] = .ok joined ∧
    ofPairs [("server.ports[0]", "80"), ("server.ports[1]", "443"), ("server.ports[2]", "http")] =
      .ok indexed ∧
    joined.bindTo ⟨"server.ports", none, none, ""⟩ (.list (.scalar (.int .u16))) =
      indexed.bindTo ⟨"server.ports", none, none, ""⟩ (.list (.scalar (.int .u16))) := by
  have hitem : ∀ item ∈ ["80", "443", "http"], Text.IsItem item := by
    have hplain : ∀ item ∈ ["80", "443", "http"], Template.Plain item.toList := by
      unfold Template.Plain
      decide
    have hrest : ∀ item ∈ ["80", "443", "http"],
        ',' ∉ item.toList ∧ Text.trimChars item.toList = item.toList := by decide
    exact fun item hi => ⟨(hrest item hi).1, hplain item hi, (hrest item hi).2⟩
  have hall := bindTo_commaList (.scalar (.int .u16)) hitem (by decide) (by decide) "server.ports"
  obtain ⟨⟨joined, hj⟩, indexed, hx⟩ :=
    hall.2 [.name "server", .name "ports"] (by cbv) (by simp) (by decide)
  exact ⟨joined, indexed, hj, hx, hall.1 joined indexed hj hx _ rfl⟩

end Store
end BeanContainer
