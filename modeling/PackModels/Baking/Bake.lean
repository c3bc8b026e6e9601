import PackModels.Atlas.Lookup
import PackModels.Baking.BakedModel
import PackModels.Discovery
import PackModels.Model.Slots

/-!
Contract: baking one model.

What a model inherits is decided value by value: texture slots, display
transforms, the flags and the list of elements each come from the first model
of its chain that declares them. Then the particle sprite is looked up and the
elements are baked in order. The first element with a fault ends the bake;
what was looked up before it stays recorded.
-/

namespace PackModels

structure Inherited where
  slots : SlotTable
  ambientOcclusion : Bool
  guiLight : GuiLight
  transforms : Transforms
  elements : List Element

namespace Inherited

/-- The values of a chain of models, the most derived one first. -/
def ofChain (chain : List ModelDef) : Inherited where
  slots := SlotTable.resolve chain
  ambientOcclusion := (chain.findSome? ModelDef.ambientOcclusion).getD true
  guiLight := (chain.findSome? ModelDef.guiLight).getD .side
  transforms := Transforms.resolve (chain.map ModelDef.display)
  elements := (chain.findSome? ModelDef.elements).getD []

end Inherited

namespace Bake

/-- A model under a name whose sprites are looked up in some atlases. -/
structure Subject where
  atlases : AtlasSet
  name : String
  slots : SlotTable
  placement : Placement

def slotSprite (subject : Subject) (slot : String) (misses : Misses) : Sprite × Misses :=
  match subject.slots.material? slot with
  | some material => subject.atlases.lookUp subject.name material misses
  | none => subject.atlases.lookUpUnbound subject.name slot misses

def faceSlot (face : Face) : String :=
  (Text.dropLeading? '#' face.texture).getD face.texture

def fileFace (subject : Subject) (element : Element) (direction : Direction) (face : Face)
    (sprite : Sprite) : Option Direction × Quad :=
  (face.cullFace.map subject.placement.turns.turnFace,
    Quad.ofFace element face sprite direction subject.placement)

def faces (subject : Subject) (element : Element) :
    List (Direction × Face) → Misses → List (Option Direction × Quad) × Misses
  | [], misses => ([], misses)
  | (direction, face) :: rest, misses =>
      let looked := slotSprite subject (faceSlot face) misses
      let others := faces subject element rest looked.2
      (fileFace subject element direction face looked.1 :: others.1, others.2)

def elements (subject : Subject) :
    List Element → Misses → Except BakeError (List (Option Direction × Quad)) × Misses
  | [], misses => (.ok [], misses)
  | element :: rest, misses =>
      match element.validate subject.name with
      | .error error => (.error error, misses)
      | .ok () =>
          let own := faces subject element element.faces.toList misses
          match elements subject rest own.2 with
          | (.error error, after) => (.error error, after)
          | (.ok others, after) => (.ok (own.1 ++ others), after)

def chain (atlases : AtlasSet) (name : String) (definitions : List ModelDef)
    (placement : Placement) (misses : Misses) : Except BakeError BakedModel × Misses :=
  let inherited := Inherited.ofChain definitions
  let subject : Subject := ⟨atlases, name, inherited.slots, placement⟩
  let particle := slotSprite subject ModelDef.particleSlot misses
  match elements subject inherited.elements particle.2 with
  | (.error error, after) => (.error error, after)
  | (.ok filed, after) =>
      (.ok
        { quads := BakedModel.filedUnder filed
          ambientOcclusion := inherited.ambientOcclusion
          gui3d := true
          usesBlockLight := inherited.guiLight.usesBlockLight
          particle := particle.1
          transforms := inherited.transforms },
        after)

def model (models : ModelSet) (atlases : AtlasSet) (id : ResourceId) (placement : Placement)
    (misses : Misses) : Except BakeError BakedModel × Misses :=
  chain atlases id.render (models.chain id) placement misses

/-- The faces of the missing model as they are filed, all with one sprite. -/
def missingFaces (sprite : Sprite) : List (Option Direction × Quad) :=
  (ModelDef.missing.elements.getD []).flatMap
    (fun element => element.faces.toList.map
      (fun entry => (entry.2.cullFace,
        Quad.ofFace element entry.2 sprite entry.1 Placement.identity)))

/-- The missing model baked by hand, for a load that could not bake at all. -/
def missingModel (sprite : Sprite) : BakedModel where
  quads := BakedModel.filedUnder (missingFaces sprite)
  ambientOcclusion := true
  gui3d := true
  usesBlockLight := true
  particle := sprite
  transforms := Transforms.none

end Bake

end PackModels
