import PackModels.Atlas.Sprite
import PackModels.Geometry.Face
import PackModels.Geometry.Rotation
import PackModels.Model.Element

/-!
Contract: one face of an element as it is drawn.

A face becomes four corners in the block, each with its place in the atlas.
The element turns first, then the whole model about the centre of the block.
When textures keep to the axes of the world and the model turns, the texture
is laid over the turned corners; otherwise it is the part that the face names,
or the default one, turned by quarter turns.
-/

namespace PackModels

structure Quad where
  /-- The corners, in blocks. -/
  vertices : FaceGeometry.Corners (Vec3 Float32)
  uvs : FaceGeometry.Corners (Float32 × Float32)
  direction : Direction
  tintIndex : Int
  shade : Bool
  sprite : Sprite
deriving Inhabited

namespace Quad

def isTinted (quad : Quad) : Bool :=
  quad.tintIndex != -1

/-- The unit vector of an axis, and what is across it. -/
def axisVectors : Axis → Vec3 Float32 × Vec3 Float32
  | .x => (⟨1, 0, 0⟩, ⟨0, 1, 1⟩)
  | .y => (⟨0, 1, 0⟩, ⟨1, 0, 1⟩)
  | .z => (⟨0, 0, 1⟩, ⟨1, 1, 0⟩)

def turnCorner (rotation : ElementRotation) (corner : Vec3 Float32) : Vec3 Float32 :=
  let vectors := axisVectors rotation.axis
  let angle := Quaternion.radians rotation.angle
  let turned := (Quaternion.aboutAxis vectors.1 angle).turn (corner - rotation.origin)
  let growth : Vec3 Float32 :=
    if rotation.rescale && rotation.angle != 0 then
      Vec3.splat 1 + vectors.2.scale (1 / angle.cos - 1)
    else
      .splat 1
  rotation.origin + turned * growth

/-- The corners of a side of an element, in sixteenths of a block. -/
def elementCorners (element : Element) (direction : Direction) :
    FaceGeometry.Corners (Vec3 Float32) :=
  let corners := FaceGeometry.corners element.fromCorner element.toCorner direction
  match element.rotation with
  | some rotation => corners.map (turnCorner rotation)
  | none => corners

/-- A corner after the turn of the whole model, in blocks. -/
def placeCorner (turns : QuarterTurns) (corner : Vec3 Float32) : Vec3 Float32 :=
  let scaled := corner.map (· / 16)
  if turns.isIdentity then
    scaled
  else
    Vec3.splat 0.5 + turns.rotation.turn (scaled - .splat 0.5)

/-- The number of quarter turns of a texture, of which only whole ones count. -/
def textureTurns (rotation : Int) : Nat :=
  (((rotation.tdiv 90).tmod 4 + 4).tmod 4).toNat

/-- The texture coordinates that a face names or has by default. -/
def plainUvs (element : Element) (face : Face) (direction : Direction) :
    FaceGeometry.Corners (Float32 × Float32) :=
  (FaceGeometry.cornerUvs
    (face.uv.getD
      (FaceGeometry.defaultUv element.fromCorner element.toCorner direction))).advanceBy
    (textureTurns face.rotation)

def ofFace (element : Element) (face : Face) (sprite : Sprite) (direction : Direction)
    (placement : Placement) : Quad :=
  let vertices := (elementCorners element direction).map (placeCorner placement.turns)
  let shown := placement.turns.turnFace direction
  let uvs :=
    if placement.uvLock && !placement.turns.isIdentity then
      vertices.map (fun vertex => FaceGeometry.project vertex shown)
    else
      plainUvs element face direction
  ⟨vertices, uvs.map (fun uv => (sprite.u uv.1, sprite.v uv.2)), shown, face.tintIndex,
    element.shade, sprite⟩

end Quad

end PackModels
