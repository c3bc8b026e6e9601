import PackModels.Atlas.Grid
import PackModels.Groups
import PackModels.Item
import PackModels.Model.Definition
import PackModels.Shared

/-!
Contract: everything that one reload works from.

A reload is given the texts of all models, the registry, what its states and
its items are bound to, and two things that can fail as a whole: the source of
tints and the outcome of stitching. Reading the models leaves out each one
that cannot be read, with a warning. The models that can be read are distinct
instances, none of which has the tag of the missing model.
-/

namespace PackModels

/-- Everything that one reload works from. -/
structure ReloadInputs where
  models : Table ResourceId String
  registry : Registry
  bindings : BindingTable
  items : Table ResourceId ItemBinding
  /-- The source of tints; without one, being asked about a block is a failure. -/
  tints : Option TintSource
  /-- The stitched atlases and the complaints about them; none if stitching
  fails. -/
  stitched : Option (AtlasSet × List Warning)

/-- The models of a pack that can be read, with how many cannot be. -/
structure ReadModels where
  models : Table ResourceId (Shared ModelDef)
  failed : Nat

namespace ReadModels

def empty : ReadModels :=
  ⟨∅, 0⟩

def add (read : ReadModels × List Warning) (entry : (ResourceId × String) × Nat) :
    ReadModels × List Warning :=
  match ModelDef.parse entry.1.1 entry.1.2 with
  | .ok model =>
      ({ read.1 with models := read.1.models.insert entry.1.1 ⟨entry.2, model⟩ }, read.2)
  | .error error =>
      ({ read.1 with failed := read.1.failed + 1 }, read.2 ++ [.modelUnreadable error])

/-- Reads models in the order given. The tags of instances count from one. -/
def ofEntries (entries : List (ResourceId × String)) : ReadModels × List Warning :=
  (entries.zipIdx 1).foldl add (empty, [])

def ofTexts (texts : Table ResourceId String) : ReadModels × List Warning :=
  ofEntries texts.toList

end ReadModels

end PackModels
