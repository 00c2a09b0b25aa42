/-
# The registry of beans

All registered beans, each known by its position. This file holds the searches: which beans match
a selector, and which beans an injection point gets, in which order.

Key definitions:
- `Registry`, with `Registry.satisfying`, the positions of the beans with a property.
- `Registry.find`, the beans that a selector matches.
- `Registry.select`, the beans that a tag picks among those of a type.
- `Registry.handles`, the selected beans as injection points see them.
- `Registry.lookup` and `Registry.holds`, the beans as conditions see them.
-/
import BeanContainer.Bean

namespace BeanContainer

/-- All registered beans, in the order of their registration. -/
structure Registry where
  beans : List Bean
  deriving Inhabited

namespace Registry

/-- The registry without beans. -/
def empty : Registry := ⟨[]⟩

/-- Adds a bean behind the others. -/
def register (registry : Registry) (definition : Definition) : Registry :=
  ⟨registry.beans ++ [Bean.ofDefinition definition]⟩

/-- Changes the bean at a position. -/
def modify (registry : Registry) (index : Nat) (change : Bean → Bean) : Registry :=
  ⟨registry.beans.modify index change⟩

/-- Sets how far the bean at a position has come. -/
def setStatus (registry : Registry) (index : Nat) (status : Status) : Registry :=
  registry.modify index fun bean => { bean with status }

/-- The positions of the beans. -/
def indices (registry : Registry) : List Nat :=
  List.range registry.beans.length

/-- Whether the bean at a position has a property. -/
def satisfies (registry : Registry) (property : Bean → Bool) (index : Nat) : Bool :=
  registry.beans[index]?.any property

/-- The positions of the beans with a property. -/
def satisfying (registry : Registry) (property : Bean → Bool) : List Nat :=
  registry.indices.filter (registry.satisfies property)

/-- The ids of the beans at these positions. -/
def ids (registry : Registry) (indices : List Nat) : List String :=
  indices.filterMap fun index => registry.beans[index]?.map (·.id)

/-- What a search says about the beans at these positions. -/
def summaries (registry : Registry) (indices : List Nat) : List Summary :=
  indices.filterMap fun index => registry.beans[index]?.map Bean.summary

/-- The beans that a selector matches, dropped ones aside. -/
def find (registry : Registry) (selector : Selector) : List Nat :=
  registry.satisfying fun bean => bean.isAlive && selector.accepts bean.toDefinition

/-- The beans that can be injected as `type`. -/
def candidates (registry : Registry) (type : TypeName) : List Nat :=
  registry.satisfying fun bean => bean.isInjectable && bean.exports.contains type

/-- The order of the bean at a position. -/
def orderOf (registry : Registry) (index : Nat) : Int :=
  (registry.beans[index]?.map (·.order)).getD 0

/-- The positions sorted by the orders of their beans; equal ones stay as they stand. -/
def byOrder (registry : Registry) (indices : List Nat) : List Nat :=
  indices.mergeSort fun a b => registry.orderOf a ≤ registry.orderOf b

/-- The beans that were picked so far; `star` is where the others go. -/
structure Picks where
  picked : List Nat
  star : Option Nat
  deriving DecidableEq, Repr

/-- Picks the candidate that a selector of a tag names. -/
def pick (registry : Registry) (type : TypeName) (optional : Bool) (picks : Picks)
    (selector : Selector) : Except LookupFault Picks :=
  if selector = .all then .ok { picks with star := some picks.picked.length }
  else
    match (registry.candidates type).filter
        (registry.satisfies fun bean => selector.accepts bean.toDefinition) with
    | [] => if optional then .ok picks else .error (.noMatch selector.shown type.text)
    | [one] =>
      if one ∈ picks.picked then .ok picks
      else .ok { picks with picked := picks.picked ++ [one] }
    | several => .error (.severalMatches selector.shown type.text (registry.ids several))

/-- The beans that a tag picks among those that can be injected as `type`: all of them by order
when the tag takes beans by type; else those that its selectors name, one after the other, and at
a star the remaining ones by order. -/
def select (registry : Registry) (type : TypeName) (tag : AutowireTag) :
    Except LookupFault (List Nat) :=
  if tag.isAuto then .ok (registry.byOrder (registry.candidates type))
  else do
    let picks ← tag.selectors.foldlM (registry.pick type tag.optional) ⟨[], none⟩
    match picks.star with
    | none => return picks.picked
    | some place =>
      let rest := (registry.candidates type).filter (· ∉ picks.picked)
      return picks.picked.take place ++ registry.byOrder rest ++ picks.picked.drop place

/-- The beans at these positions as injection points for `type` see them. -/
def handles (registry : Registry) (type : TypeName) (indices : List Nat) : List Handle :=
  indices.filterMap fun index => do
    let bean ← registry.beans[index]?
    if bean.exports.contains type then some ⟨index, bean.id, type⟩ else none

/-- The beans that a selector matches, as the condition of the bean `self` sees them: without the
bean itself, and split by whether they are decided. -/
def lookup (registry : Registry) (self : Option Nat) (selector : Selector) : BeanLookup :=
  let found := (registry.find selector).filter fun index => self ≠ some index
  ⟨registry.ids (found.filter (registry.satisfies (!·.isUndecided))),
    registry.ids (found.filter (registry.satisfies (·.isUndecided)))⟩

/-- Whether a condition holds now that beans are decided. -/
def holds (registry : Registry) (store : Store) (condition : Condition) : Except Fault Bool :=
  condition.holds store (registry.lookup none)

end Registry
end BeanContainer
