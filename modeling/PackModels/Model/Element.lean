import PackModels.Direction
import PackModels.Decimal.Layout
import PackModels.Json.Decode
import PackModels.Warning

/-!
Contract: the boxes that a model is made of.

An element is a box between two corners, which need not be ordered, with a
face for some of its six sides and perhaps a turn of its own. `validate` says
what a model may hold: corners within one block around the block, one of five
angles, and textures turned by quarter turns below a full one. The first fault
in that order is the one reported.
-/

namespace PackModels

structure ElementRotation where
  /-- The point that stays in place. -/
  origin : Vec3 Float32
  axis : Axis
  /-- The angle in degrees. -/
  angle : Float32
  /-- Whether the element grows back to its old extent across the axis. -/
  rescale : Bool
deriving Inhabited

structure Face where
  /-- The slot that gives the texture, perhaps after a hash sign. -/
  texture : String
  /-- The neighbour that hides the face. -/
  cullFace : Option Direction
  uv : Option (Float32 × Float32 × Float32 × Float32)
  /-- The turn of the texture in degrees. -/
  rotation : Int
  /-- The tint that applies, or minus one. -/
  tintIndex : Int
deriving Inhabited

structure Element where
  fromCorner : Vec3 Float32
  toCorner : Vec3 Float32
  rotation : Option ElementRotation
  shade : Bool
  faces : Table Direction Face
deriving Inhabited

/-- Why a model or a binding cannot be baked. -/
inductive BakeError where
  | elementBounds (model : String) (fromCorner toCorner : Vec3 Float32)
  | elementRotation (model : String) (angle : Float32)
  | faceRotation (model : String) (face : Direction) (rotation : Int)
  | emptyChoice (name : String)

namespace BakeError

def renderCorner (corner : Vec3 Float32) : String :=
  "["
    ++ Text.join ", "
        (corner.toList.map
          (fun x => Decimal.Layout.coordinate.write (Decimal.readBinary32 x)))
    ++ "]"

def message : BakeError → String
  | elementBounds model fromCorner toCorner =>
      "element in " ++ model ++ " is out of bounds: from " ++ renderCorner fromCorner ++ " to "
        ++ renderCorner toCorner
  | elementRotation model angle =>
      "element in " ++ model ++ " has rotation angle "
        ++ Decimal.Layout.angle.write (Decimal.readBinary32 angle)
        ++ ", expected one of -45, -22.5, 0, 22.5, 45"
  | faceRotation model face rotation =>
      "face " ++ face.name ++ " in " ++ model ++ " has uv rotation " ++ toString rotation
        ++ ", expected 0, 90, 180 or 270"
  | emptyChoice name => "weighted model " ++ name ++ " has no entries with positive weight"

end BakeError

namespace ElementRotation

def allowedAngle (angle : Float32) : Bool :=
  angle == -45 || angle == -22.5 || angle == 0 || angle == 22.5 || angle == 45

def decode : Json.Decoder ElementRotation :=
  fun depth node =>
    match Json.Decoder.fields ["origin", "axis", "angle", "rescale"] depth node with
    | some (inner, [origin, axis, angle, rescale]) => do
        let origin ← Json.Decoder.required Json.Decoder.vec3 inner origin
        let axis ← Json.Decoder.required (Json.Decoder.choice Axis.ofName?) inner axis
        let angle ← Json.Decoder.required Json.Decoder.binary32 inner angle
        let rescale ← Json.Decoder.withDefault false Json.Decoder.boolean inner rescale
        return ⟨origin, axis, angle, rescale⟩
    | _ => none

end ElementRotation

namespace Face

/-- Whether a texture is turned by quarter turns below a full one. -/
def allowedRotation (rotation : Int) : Bool :=
  rotation % 90 == 0 && decide (0 ≤ rotation) && decide (rotation < 360)

def decodeUv : Json.Decoder (Float32 × Float32 × Float32 × Float32) :=
  fun depth node =>
    match Json.Decoder.list Json.Decoder.binary32 depth node with
    | some [u0, v0, u1, v1] => some (u0, v0, u1, v1)
    | _ => none

def decode : Json.Decoder Face :=
  fun depth node =>
    match Json.Decoder.fields ["texture", "cullface", "uv", "rotation", "tintindex"]
        depth node with
    | some (inner, [texture, cullFace, uv, rotation, tintIndex]) => do
        let texture ← Json.Decoder.required Json.Decoder.text inner texture
        let cullFace ← Json.Decoder.withDefault none
          (Json.Decoder.optional (Json.Decoder.choice Direction.ofName?)) inner cullFace
        let uv ← Json.Decoder.withDefault none (Json.Decoder.optional decodeUv) inner uv
        let rotation ← Json.Decoder.withDefault 0 Json.Decoder.integer32 inner rotation
        let tintIndex ← Json.Decoder.withDefault (-1) Json.Decoder.integer32 inner tintIndex
        return ⟨texture, cullFace, uv, rotation, tintIndex⟩
    | _ => none

end Face

namespace Element

def inBounds (corner : Vec3 Float32) : Bool :=
  corner.all (fun x => decide (-16 ≤ x) && decide (x ≤ 32))

def badFace? (element : Element) : Option (Direction × Face) :=
  element.faces.toList.find? (fun entry => !Face.allowedRotation entry.2.rotation)

def validate (element : Element) (model : String) : Except BakeError Unit :=
  if !(inBounds element.fromCorner && inBounds element.toCorner) then
    .error (.elementBounds model element.fromCorner element.toCorner)
  else
    match element.rotation.filter
        (fun rotation => !ElementRotation.allowedAngle rotation.angle) with
    | some rotation => .error (.elementRotation model rotation.angle)
    | none =>
        match element.badFace? with
        | some (direction, face) => .error (.faceRotation model direction face.rotation)
        | none => .ok ()

def decode : Json.Decoder Element :=
  fun depth node =>
    match Json.Decoder.fields ["from", "to", "rotation", "shade", "faces"] depth node with
    | some (inner, [fromCorner, toCorner, rotation, shade, faces]) => do
        let fromCorner ← Json.Decoder.required Json.Decoder.vec3 inner fromCorner
        let toCorner ← Json.Decoder.required Json.Decoder.vec3 inner toCorner
        let rotation ← Json.Decoder.withDefault none
          (Json.Decoder.optional ElementRotation.decode) inner rotation
        let shade ← Json.Decoder.withDefault true Json.Decoder.boolean inner shade
        let faces ← Json.Decoder.withDefault []
          (Json.Decoder.entries Direction.ofName? Face.decode) inner faces
        return ⟨fromCorner, toCorner, rotation, shade, Table.ofPairs faces⟩
    | _ => none

end Element

end PackModels
