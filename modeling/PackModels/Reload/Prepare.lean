import PackModels.Reload.Inputs
import PackModels.Reload.Snapshot

/-!
Contract: making a generation of models from the inputs of a reload.

Discovery starts from everything that is bound, states before items and each
in order. Groups and atlases do not depend on it, and where one of these two
stages fails the reload goes on without its result. Then everything is baked
and each state is given what was baked for it; a visible state without a baked
model is complained about.
-/

namespace PackModels.Prepare

def missingModel : Shared ModelDef :=
  ⟨0, ModelDef.missing⟩

/-- Every model that something is bound to, states before items. -/
def rootsOf (bindings : BindingTable) (items : Table ResourceId ItemBinding) :
    List ResourceId :=
  bindings.toList.flatMap (fun entry => entry.2.models)
    ++ items.toList.flatMap (fun entry => entry.2.models)

def discover (inputs : ReloadInputs) (read : ReadModels) : Discovery × List Warning :=
  Discovery.visitAll (Discovery.start read.models missingModel)
    (rootsOf inputs.bindings inputs.items)

/-- The groups of the states, or none where the source of tints fails. -/
def groups (inputs : ReloadInputs) : Groups × List Warning :=
  match inputs.tints with
  | some tints => (Groups.build tints inputs.registry inputs.bindings, [])
  | none =>
      if Groups.asksForTints inputs.registry then
        (Groups.empty, [.stageFailed .computeGroups])
      else
        (Groups.build (fun _ => []) inputs.registry inputs.bindings, [])

/-- The atlases, or those without textures where stitching fails. -/
def atlases (inputs : ReloadInputs) : AtlasSet × List Warning :=
  inputs.stitched.getD (AtlasSet.missingOnly, [.stageFailed .stitchAtlases])

def bakedFor? (registry : Registry) (baked : Table StateId StateModel)
    (state : StateHandle) : Option StateModel :=
  (registry.stateId? state).bind (fun id => baked[id]?)

def unbaked (registry : Registry) (baked : Table StateId StateModel) : List StateHandle :=
  registry.handles.filter (fun state => (bakedFor? registry baked state).isNone)

/-- The complaints about visible states without a baked model. -/
def dispatchWarnings (registry : Registry) (baked : Table StateId StateModel) :
    List Warning :=
  (((unbaked registry baked).filter
      (fun state => !Look.isInvisible registry state)).filterMap registry.stateId?).map
    .stateUnbound

def dispatch (registry : Registry) (batch : Batch) : Array StateModel :=
  (registry.handles.map
    (fun state => (bakedFor? registry batch.stateModels state).getD
      (.single batch.missingModel))).toArray

/-- The generation of some inputs, with the warnings of every stage. -/
def snapshot (inputs : ReloadInputs) : Snapshot × List Warning :=
  let read := ReadModels.ofTexts inputs.models
  let found := discover inputs read.1
  let models := ModelSet.ofDiscovery found.1
  let grouped := groups inputs
  let stitched := atlases inputs
  let baked := Batch.bakeAll ⟨models, stitched.1⟩ inputs.bindings inputs.items
  let batch := baked.1
  ({ registry := inputs.registry
     dispatch := dispatch inputs.registry batch
     itemModels := batch.itemModels
     missingModel := batch.missingModel
     groups := grouped.1
     atlases := stitched.1
     missingTextures := batch.missingTextures
     unreferenced := found.1.unreferenced
     stats :=
      { loadedModels := read.1.models.size
        failedModels := read.1.failed
        referencedModels := models.size
        dispatchMisses := (unbaked inputs.registry batch.stateModels).length
        bake := batch.stats } },
    read.2 ++ found.2 ++ grouped.2 ++ stitched.2 ++ baked.2
      ++ batch.missingTextures.warnings
      ++ dispatchWarnings inputs.registry batch.stateModels)

end PackModels.Prepare
