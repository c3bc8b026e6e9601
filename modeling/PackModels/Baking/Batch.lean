import PackModels.Baking.Cache
import PackModels.Binding.StateFile

/-!
Contract: baking everything that a load binds.

One cache serves the whole load: first the missing model, then the bindings of
states in order, then the items in order. A binding that fails is left out
with a warning and disturbs no other. When even the missing model cannot be
baked, the one baked by hand takes its place.
-/

namespace PackModels

structure BakeStats where
  cacheHits : Nat
  cacheMisses : Nat
  uniqueModels : Nat
  failedBindings : Nat
deriving DecidableEq, Repr, Inhabited

structure Batch where
  missingModel : Shared BakedModel
  stateModels : Table StateId StateModel
  itemModels : Table ResourceId ItemModel
  missingTextures : Misses
  stats : BakeStats

namespace Batch

/-- The tag of the missing model when it is baked by hand. -/
def handBakedTag : Nat :=
  0

def missingOnly (sprite : Sprite) : Batch :=
  ⟨⟨handBakedTag, Bake.missingModel sprite⟩, ∅, ∅, ∅, ⟨0, 0, 0, 0⟩⟩

/-- What has been baked so far, how many bindings have failed, and the
complaints about them. -/
structure Progress (Key : Type) [Ord Key] (Value : Type) where
  state : BakeState
  models : Table Key Value
  failed : Nat
  warnings : List Warning

variable (bakery : Bakery)

def bakeMissing : Shared BakedModel × BakeState × List Warning :=
  match bakery.bake ModelDef.missingId Placement.identity .start with
  | (.ok model, state) => (model, state, [])
  | (.error error, state) =>
      let looked :=
        bakery.atlases.lookUp ModelDef.missingId.render Material.missing state.missed
      (⟨handBakedTag, Bake.missingModel looked.1⟩, { state with missed := looked.2 },
        [.bakeFailed ModelDef.missingId.render error.message])

/-- Bakes what a key is bound to. A failure is counted and complained about. -/
def bakeOne {Key Source Value : Type} [Ord Key] [Std.TransOrd Key]
    (bake : Key → Source → BakeState → Except BakeError Value × BakeState)
    (complaint : Key → BakeError → Warning)
    (progress : Progress Key Value) (entry : Key × Source) : Progress Key Value :=
  match bake entry.1 entry.2 progress.state with
  | (.ok model, state) =>
      { progress with state := state, models := progress.models.insert entry.1 model }
  | (.error error, state) =>
      { progress with
        state := state
        failed := progress.failed + 1
        warnings := progress.warnings ++ [complaint entry.1 error] }

def bakeState : Progress StateId StateModel → StateId × Binding → Progress StateId StateModel :=
  bakeOne (fun id => bakery.bakeBinding id.render)
    (fun id error => .bakeFailed id.render error.message)

def bakeItem :
    Progress ResourceId ItemModel → ResourceId × ItemBinding → Progress ResourceId ItemModel :=
  bakeOne (fun _ => bakery.bakeItem) (fun id error => .itemBakeFailed id error.message)

def bakeAll (bindings : BindingTable) (items : Table ResourceId ItemBinding) :
    Batch × List Warning :=
  let missing := bakeMissing bakery
  let states := bindings.toList.foldl (bakeState bakery) ⟨missing.2.1, ∅, 0, []⟩
  let shown := items.toList.foldl (bakeItem bakery) ⟨states.state, ∅, states.failed, []⟩
  (⟨missing.1, states.models, shown.models, shown.state.missed,
      ⟨shown.state.cache.hits, shown.state.cache.misses, shown.state.cache.entries.size,
        shown.failed⟩⟩,
    missing.2.2 ++ states.warnings ++ shown.warnings)

end Batch

end PackModels
