import PackModels.Baking.Batch
import PackModels.Groups

/-!
Contract: one generation of models, as it is looked up.

A snapshot gives a model for every handle and every item: what was baked for
it, or the missing model. It never changes; a reload makes another one.
-/

namespace PackModels

structure ReloadStats where
  loadedModels : Nat
  failedModels : Nat
  referencedModels : Nat
  dispatchMisses : Nat
  bake : BakeStats
deriving DecidableEq, Repr, Inhabited

structure Snapshot where
  registry : Registry
  dispatch : Array StateModel
  itemModels : Table ResourceId ItemModel
  missingModel : Shared BakedModel
  groups : Groups
  atlases : AtlasSet
  missingTextures : Misses
  unreferenced : List ResourceId
  stats : ReloadStats

namespace Snapshot

/-- The generation before the first reload, in which everything is missing. -/
def empty : Snapshot where
  registry := Registry.empty
  dispatch := #[]
  itemModels := ∅
  missingModel := (Batch.missingOnly AtlasSet.missingOnly.missing).missingModel
  groups := Groups.empty
  atlases := AtlasSet.missingOnly
  missingTextures := ∅
  unreferenced := []
  stats := ⟨0, 0, 0, 0, ⟨0, 0, 0, 0⟩⟩

variable (snapshot : Snapshot)

def stateModel (state : StateHandle) : StateModel :=
  snapshot.dispatch[state]?.getD (.single snapshot.missingModel)

def itemModel (id : ResourceId) : ItemModel :=
  snapshot.itemModels[id]?.getD (.model snapshot.missingModel)

/-- Whether a state must be drawn again when another one replaces it. -/
def requiresRender? (old new : StateHandle) : Option Bool :=
  snapshot.groups.requiresRender? snapshot.registry old new

end Snapshot

end PackModels
