import PackModels.Baking.Bake
import PackModels.Binding.Binding
import PackModels.Item

/-!
Contract: baking through a cache.

A bake is looked up by model and placement before it is made, and kept when it
succeeds; a failure is not kept. Each look-up that finds nothing is a miss,
and an instance takes the number of its miss as its tag, so the instances of a
cache have distinct tags, none of them zero. Bindings are baked from left to
right and end with their first failure.
-/

namespace PackModels

structure BakeKey where
  id : ResourceId
  placement : Placement
deriving DecidableEq, Repr, Inhabited

namespace BakeKey

instance : Ord BakeKey :=
  ⟨compareLex (compareOn BakeKey.id) (compareOn BakeKey.placement)⟩

instance : Std.TransOrd BakeKey :=
  inferInstanceAs
    (Std.TransCmp (compareLex (compareOn BakeKey.id) (compareOn BakeKey.placement)))

instance : Std.LawfulEqOrd BakeKey where
  eq_of_compare {left right} equal := by
    have parts := Ordering.then_eq_eq.mp equal
    cases left
    cases right
    simp_all [compareOn]

end BakeKey

/-- The bakes that have succeeded, and how often one was looked for. -/
structure BakeCache where
  entries : Table BakeKey (Shared BakedModel)
  hits : Nat
  misses : Nat

namespace BakeCache

def empty : BakeCache :=
  ⟨∅, 0, 0⟩

end BakeCache

structure BakeState where
  cache : BakeCache
  missed : Misses

namespace BakeState

def start : BakeState :=
  ⟨.empty, ∅⟩

end BakeState

structure Bakery where
  models : ModelSet
  atlases : AtlasSet

namespace Bakery

variable (bakery : Bakery)

/-- Bakes a model under a placement, or finds the bake that was made before. -/
def bake (id : ResourceId) (placement : Placement) (state : BakeState) :
    Except BakeError (Shared BakedModel) × BakeState :=
  let key : BakeKey := ⟨id, placement⟩
  match state.cache.entries[key]? with
  | some found =>
      (.ok found, { state with cache := { state.cache with hits := state.cache.hits + 1 } })
  | none =>
      let misses := state.cache.misses + 1
      match Bake.model bakery.models bakery.atlases id placement state.missed with
      | (.error error, missed) =>
          (.error error, ⟨{ state.cache with misses := misses }, missed⟩)
      | (.ok model, missed) =>
          let fresh : Shared BakedModel := ⟨misses, model⟩
          (.ok fresh,
            ⟨⟨state.cache.entries.insert key fresh, state.cache.hits, misses⟩, missed⟩)

def bakeEntries :
    List WeightedVariant → BakeState → Except BakeError (List WeightedModel) × BakeState
  | [], state => (.ok [], state)
  | entry :: rest, state =>
      match bakery.bake entry.variant.model entry.variant.placement state with
      | (.error error, after) => (.error error, after)
      | (.ok model, after) =>
          match bakeEntries rest after with
          | (.error error, last) => (.error error, last)
          | (.ok models, last) => (.ok (⟨entry.weight, model⟩ :: models), last)

mutual

def bakeBinding (name : String) :
    Binding → BakeState → Except BakeError StateModel × BakeState
  | .single variant, state =>
      match bakery.bake variant.model variant.placement state with
      | (.error error, after) => (.error error, after)
      | (.ok model, after) => (.ok (.single model), after)
  | .weighted entries, state =>
      match bakery.bakeEntries entries state with
      | (.error error, after) => (.error error, after)
      | (.ok models, after) =>
          match StateModel.ofWeighted? models with
          | some choice => (.ok choice, after)
          | none => (.error (.emptyChoice name), after)
  | .composite parts, state =>
      match bakeParts name parts state with
      | (.error error, after) => (.error error, after)
      | (.ok models, after) => (.ok (.composite models), after)

def bakeParts (name : String) :
    List Binding → BakeState → Except BakeError (List StateModel) × BakeState
  | [], state => (.ok [], state)
  | part :: rest, state =>
      match bakeBinding name part state with
      | (.error error, after) => (.error error, after)
      | (.ok model, after) =>
          match bakeParts name rest after with
          | (.error error, last) => (.error error, last)
          | (.ok models, last) => (.ok (model :: models), last)

end

def bakeItem (item : ItemBinding) (state : BakeState) :
    Except BakeError ItemModel × BakeState :=
  match item with
  | .empty => (.ok .empty, state)
  | .model id =>
      match bakery.bake id Placement.identity state with
      | (.error error, after) => (.error error, after)
      | (.ok model, after) => (.ok (.model model), after)

end Bakery

end PackModels
