import PackModels.Direction

/-!
Contract: the three tables of face geometry.

`corners` gives the four corners of a side of a box in the order in which a
texture is laid over them; `defaultUv` gives the part of the texture that a
side shows when its file names none; `project` lays the texture over a side
from the place of its corners in the block. The tables are stated over any
kind of number, because that they fit each other is a fact of exact
arithmetic.
-/

namespace PackModels.FaceGeometry

/-- One value for each corner of a face, in the order of the corners. -/
structure Corners (β : Type) where
  first : β
  second : β
  third : β
  fourth : β
deriving DecidableEq, Repr, Inhabited

namespace Corners

variable {β γ : Type}

def map (f : β → γ) (corners : Corners β) : Corners γ :=
  ⟨f corners.first, f corners.second, f corners.third, f corners.fourth⟩

def toList (corners : Corners β) : List β :=
  [corners.first, corners.second, corners.third, corners.fourth]

def advance (corners : Corners β) : Corners β :=
  ⟨corners.fourth, corners.first, corners.second, corners.third⟩

def advanceBy : Nat → Corners β → Corners β
  | 0, corners => corners
  | steps + 1, corners => advanceBy steps corners.advance

end Corners

variable {α : Type}

/-- The corners of a side of the box between two corners, from the start of
the texture around it. -/
def corners (a b : Vec3 α) : Direction → Corners (Vec3 α)
  | .down => ⟨⟨a.x, a.y, b.z⟩, ⟨b.x, a.y, b.z⟩, ⟨b.x, a.y, a.z⟩, ⟨a.x, a.y, a.z⟩⟩
  | .up => ⟨⟨a.x, b.y, a.z⟩, ⟨b.x, b.y, a.z⟩, ⟨b.x, b.y, b.z⟩, ⟨a.x, b.y, b.z⟩⟩
  | .north => ⟨⟨b.x, b.y, a.z⟩, ⟨a.x, b.y, a.z⟩, ⟨a.x, a.y, a.z⟩, ⟨b.x, a.y, a.z⟩⟩
  | .south => ⟨⟨a.x, b.y, b.z⟩, ⟨b.x, b.y, b.z⟩, ⟨b.x, a.y, b.z⟩, ⟨a.x, a.y, b.z⟩⟩
  | .west => ⟨⟨a.x, b.y, a.z⟩, ⟨a.x, b.y, b.z⟩, ⟨a.x, a.y, b.z⟩, ⟨a.x, a.y, a.z⟩⟩
  | .east => ⟨⟨b.x, b.y, b.z⟩, ⟨b.x, b.y, a.z⟩, ⟨b.x, a.y, a.z⟩, ⟨b.x, a.y, b.z⟩⟩

/-- The part of the texture that a side of a box shows by default, as the two
coordinates of its start and of its end. -/
def defaultUv [Sub α] [OfNat α 16] (a b : Vec3 α) : Direction → α × α × α × α
  | .down => (a.x, 16 - b.z, b.x, 16 - a.z)
  | .up => (a.x, a.z, b.x, b.z)
  | .north => (16 - b.x, 16 - b.y, 16 - a.x, 16 - a.y)
  | .south => (a.x, 16 - b.y, b.x, 16 - a.y)
  | .west => (a.z, 16 - b.y, b.z, 16 - a.y)
  | .east => (16 - b.z, 16 - b.y, 16 - a.z, 16 - a.y)

/-- The texture coordinates of the corners of a part of a texture. -/
def cornerUvs (uv : α × α × α × α) : Corners (α × α) :=
  ⟨(uv.1, uv.2.1), (uv.2.2.1, uv.2.1), (uv.2.2.1, uv.2.2.2), (uv.1, uv.2.2.2)⟩

/-- The texture coordinates of a point of the block seen along a direction. -/
def project [Sub α] [Mul α] [OfNat α 1] [OfNat α 16] (point : Vec3 α) :
    Direction → α × α
  | .down => (point.x * 16, (1 - point.z) * 16)
  | .up => (point.x * 16, point.z * 16)
  | .north => ((1 - point.x) * 16, (1 - point.y) * 16)
  | .south => (point.x * 16, (1 - point.y) * 16)
  | .west => (point.z * 16, (1 - point.y) * 16)
  | .east => ((1 - point.z) * 16, (1 - point.y) * 16)

end PackModels.FaceGeometry
