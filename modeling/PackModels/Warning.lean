import PackModels.Id

/-!
Contract: what a reader or a stage complains about without giving up.

A `DefinitionError` says why one definition file could not be used and a
`Warning` is one complaint; each has its wording in one place. Stages return
their warnings beside their result, in the order in which they arise.
-/

namespace PackModels

/-- Why a definition file cannot be used. -/
inductive DefinitionError where
  /-- The text is not a definition of the expected shape. -/
  | malformed (id : ResourceId)
  /-- A variant is turned by something else than quarter turns. -/
  | rotation (id : ResourceId) (x y : Int)
  /-- A variant key or a condition does not say what it selects. -/
  | condition (id : ResourceId) (reason : String)
  /-- An item asks for a kind of model that is not known. -/
  | itemKind (id : ResourceId) (kind : ResourceId)
  /-- An item asks for a model and names none. -/
  | itemModelMissing (id : ResourceId)
  /-- A block state file has neither variants nor parts. -/
  | emptyStates (id : ResourceId)
deriving DecidableEq, Repr

namespace DefinitionError

def message : DefinitionError → String
  | malformed id => "failed to parse " ++ id.render
  | rotation id x y =>
      "invalid rotation x=" ++ toString x ++ " y=" ++ toString y ++ " in " ++ id.render
        ++ ", expected multiples of 90"
  | condition id reason =>
      "invalid multipart condition in " ++ id.render ++ ": " ++ reason
  | itemKind id kind => "unknown item model type " ++ kind.render ++ " in " ++ id.render
  | itemModelMissing id =>
      "item definition " ++ id.render ++ " has type minecraft:model but names no model"
  | emptyStates id =>
      "blockstate " ++ id.render ++ " has neither variants nor multipart"

end DefinitionError

/-- The stages of a reload that can fail as a whole. -/
inductive Stage where
  | computeGroups
  | stitchAtlases
deriving DecidableEq, Repr

namespace Stage

def name : Stage → String
  | computeGroups => "compute groups"
  | stitchAtlases => "stitch atlases"

end Stage

inductive Warning where
  | duplicateBlock (block : ResourceId)
  | unknownVariantProperty (property key : String) (block : ResourceId)
  | unknownConditionProperty (property : String) (block : ResourceId)
  | statesUnreadable (error : DefinitionError)
  | propertiesUnreadable (error : DefinitionError)
  | modelUnreadable (error : DefinitionError)
  | itemUnreadable (error : DefinitionError)
  | modelMissing (model : ResourceId)
  /-- The ids of a loop of parents; the first one is also the last. -/
  | modelLoop (path : List ResourceId)
  | atlasFull (atlas texture : ResourceId)
  | texturesMissing (model : String) (textures : List String)
  | bakeFailed (name : String) (reason : String)
  | itemBakeFailed (item : ResourceId) (reason : String)
  | stateUnbound (state : StateId)
  | stageFailed (stage : Stage)
  | textureSize (texture : ResourceId) (width height : Nat)
  | textureUnreadable (texture : ResourceId)
  | gateLost (sequence : Nat)
  | requestDropped
deriving DecidableEq, Repr

namespace Warning

def message : Warning → String
  | duplicateBlock block =>
      "duplicate block definition " ++ block.render ++ ", keeping the first"
  | unknownVariantProperty property key block =>
      "Unknown property '" ++ property ++ "' in variant '" ++ key ++ "' of " ++ block.render
  | unknownConditionProperty property block =>
      "Unknown property '" ++ property ++ "' in multipart condition of " ++ block.render
  | statesUnreadable error => "Failed to load blockstate definition: " ++ error.message
  | propertiesUnreadable error => "Failed to read block properties: " ++ error.message
  | modelUnreadable error => "Failed to load model definition: " ++ error.message
  | itemUnreadable error => "Failed to load item definition: " ++ error.message
  | modelMissing model => "Missing block model: '" ++ model.render ++ "'"
  | modelLoop path =>
      "Detected model loading loop: " ++ Text.join "->" (path.map ResourceId.render)
  | atlasFull atlas texture =>
      "atlas " ++ atlas.render ++ " is full, dropping texture " ++ texture.render
  | texturesMissing model textures =>
      "Missing textures in model " ++ model ++ ":\n    " ++ Text.join "\n    " textures
  | bakeFailed name reason => "Unable to bake model: '" ++ name ++ "': " ++ reason
  | itemBakeFailed item reason =>
      "Unable to bake item model: '" ++ item.render ++ "': " ++ reason
  | stateUnbound state => "Missing model for variant: '" ++ state.render ++ "'"
  | stageFailed stage => "Stage " ++ stage.name ++ " failed"
  | textureSize texture width height =>
      "Skipping texture " ++ texture.render ++ " with size " ++ toString width ++ "x"
        ++ toString height
  | textureUnreadable texture => "Failed to read texture " ++ texture.render
  | gateLost sequence =>
      "Model reload " ++ toString sequence ++ " lost its gate, keeping current models"
  | requestDropped => "Model reload worker is gone, dropping reload request"

end Warning

end PackModels
