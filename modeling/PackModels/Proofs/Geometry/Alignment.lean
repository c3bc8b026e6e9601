import Mathlib.Algebra.Order.Field.Rat
import Mathlib.Tactic.Ring
import PackModels.Baking.Quad

/-!
Contract: the default texture of a side lies where the axes of the world put it.

Two tables say which point of a texture is at a corner: the default part of the
texture goes around the corners in their order, and a texture that keeps to the
axes of the world is projected along the direction of the side. In exact numbers
they agree at every corner of every side, whichever of the two corners of the box
comes first. So a face whose texture keeps to the axes and a face with the default
texture show the same point of it at one place.

Owns: `flatten`, the projection of a corner in sixteenths of a block, which both
tables come to, and `SeenAlike`, the places that a projection does not tell apart.

Does not own: what binary32 makes of these tables, or where a turn moves a corner.
-/

namespace PackModels

namespace FaceGeometry

variable {α : Type}

/-! ## Faces with the default texture, and with one that keeps to the axes -/

/-- The corners of a side of a box, in blocks. -/
def placed [Div α] [OfNat α 16] (a b : Vec3 α) (side : Direction) : Corners (Vec3 α) :=
  (corners a b side).map (fun corner => corner.map (· / 16))

/-- The texture coordinates of the corners of a side by default. -/
def defaultUvs [Sub α] [OfNat α 16] (a b : Vec3 α) (side : Direction) : Corners (α × α) :=
  cornerUvs (defaultUv a b side)

/-- The texture coordinates of places whose texture keeps to the axes of the world. -/
def lockedUvs [Sub α] [Mul α] [OfNat α 1] [OfNat α 16] (places : Corners (Vec3 α))
    (side : Direction) : Corners (α × α) :=
  places.map (fun place => project place side)

/-- Whether two places differ along an axis at most. -/
def SeenAlike (place other : Vec3 α) : Axis → Prop
  | .x => place.y = other.y ∧ place.z = other.z
  | .y => place.x = other.x ∧ place.z = other.z
  | .z => place.x = other.x ∧ place.y = other.y

/-- The texture coordinates of a point in sixteenths of a block. -/
def flatten [Sub α] [OfNat α 16] (point : Vec3 α) : Direction → α × α
  | .down => (point.x, 16 - point.z)
  | .up => (point.x, point.z)
  | .north => (16 - point.x, 16 - point.y)
  | .south => (point.x, 16 - point.y)
  | .west => (point.z, 16 - point.y)
  | .east => (16 - point.z, 16 - point.y)

/-- The default part of a texture goes around the corners as they are flattened. -/
theorem defaultUvs_eq_flatten [Sub α] [OfNat α 16] (a b : Vec3 α) (side : Direction) :
    defaultUvs a b side = (corners a b side).map (fun corner => flatten corner side) := by
  cases side with
  | down => rfl
  | up => rfl
  | north => rfl
  | south => rfl
  | west => rfl
  | east => rfl

/-! ## Exact numbers -/

/-- A corner in blocks is projected to the place of the corner in sixteenths. -/
theorem project_eq_flatten (corner : Vec3 ℚ) (side : Direction) :
    project (corner.map (· / 16)) side = flatten corner side := by
  have kept : ∀ coordinate : ℚ, coordinate / 16 * 16 = coordinate := by
    intro coordinate
    ring
  have flipped : ∀ coordinate : ℚ, (1 - coordinate / 16) * 16 = 16 - coordinate := by
    intro coordinate
    ring
  cases side with
  | down => simp only [project, flatten, Vec3.map, kept, flipped]
  | up => simp only [project, flatten, Vec3.map, kept]
  | north => simp only [project, flatten, Vec3.map, flipped]
  | south => simp only [project, flatten, Vec3.map, kept, flipped]
  | west => simp only [project, flatten, Vec3.map, kept, flipped]
  | east => simp only [project, flatten, Vec3.map, flipped]

/-- A projection along a side tells places apart that differ across it. -/
theorem project_eq_iff (place other : Vec3 ℚ) (side : Direction) :
    project place side = project other side ↔ SeenAlike place other side.axis := by
  have kept : ∀ left right : ℚ, left * 16 = right * 16 ↔ left = right := by
    intro left right
    exact mul_left_inj' (by norm_num)
  cases side with
  | down => simp only [project, Direction.axis, SeenAlike, Prod.mk.injEq, kept, sub_right_inj]
  | up => simp only [project, Direction.axis, SeenAlike, Prod.mk.injEq, kept]
  | north => simp only [project, Direction.axis, SeenAlike, Prod.mk.injEq, kept, sub_right_inj]
  | south => simp only [project, Direction.axis, SeenAlike, Prod.mk.injEq, kept, sub_right_inj]
  | west =>
      simp only [project, Direction.axis, SeenAlike, Prod.mk.injEq, kept, sub_right_inj]
      exact and_comm
  | east =>
      simp only [project, Direction.axis, SeenAlike, Prod.mk.injEq, kept, sub_right_inj]
      exact and_comm

theorem defaultUvs_eq_lockedUvs (a b : Vec3 ℚ) (side : Direction) :
    defaultUvs a b side = lockedUvs (placed a b side) side := by
  have projected : lockedUvs (placed a b side) side =
      (corners a b side).map (fun corner => project (corner.map (· / 16)) side) :=
    rfl
  rw [projected, defaultUvs_eq_flatten]
  simp only [project_eq_flatten]

/-- A texture that keeps to the axes is projected at each corner. -/
theorem eq_project_of_mem {places : Corners (Vec3 α)} [Sub α] [Mul α] [OfNat α 1] [OfNat α 16]
    {side : Direction} {shown : Vec3 α × α × α}
    (member : shown ∈ places.toList.zip (lockedUvs places side).toList) :
    shown.2 = project shown.1 side := by
  have pairs : places.toList.zip (lockedUvs places side).toList =
      places.toList.map (fun place => (place, project place side)) :=
    rfl
  rw [pairs] at member
  obtain ⟨place, _, rfl⟩ := List.mem_map.mp member
  rfl

end FaceGeometry

open FaceGeometry

namespace Quad

/-- A place of a texture on a sprite. -/
def onSprite (sprite : Sprite) (uv : Float32 × Float32) : Float32 × Float32 :=
  (sprite.u uv.1, sprite.v uv.2)

variable (element : Element) (face : Face) (sprite : Sprite) (direction : Direction)
  (placement : Placement)

/-- In a turned model with locked textures, a face is textured by the places of its
corners and the direction that it shows. -/
theorem uvs_ofFace_of_locked (locked : placement.uvLock = true)
    (turned : placement.turns.isIdentity = false) :
    let quad := ofFace element face sprite direction placement
    quad.uvs = (lockedUvs quad.vertices quad.direction).map (onSprite sprite) := by
  simp only [ofFace, locked, turned]
  rfl

/-- A face without a texture part of its own has the default one, and in a model
that is not turned its corners are those of its element. -/
theorem ofFace_of_default (still : placement.turns.isIdentity = true)
    (straight : element.rotation = none) (unnamed : face.uv = none)
    (upright : textureTurns face.rotation = 0) :
    let quad := ofFace element face sprite direction placement
    quad.direction = direction ∧
      quad.vertices = placed element.fromCorner element.toCorner direction ∧
      quad.uvs =
        (defaultUvs element.fromCorner element.toCorner direction).map (onSprite sprite) := by
  have placedCorner : placeCorner placement.turns = fun corner => corner.map (· / 16) := by
    funext corner
    rw [placeCorner, if_pos still]
  refine ⟨?_, ?_, ?_⟩
  · simp only [ofFace, QuarterTurns.turnFace, still, if_pos]
  · simp only [ofFace, elementCorners, straight, placedCorner]
    rfl
  · simp only [ofFace, still, Bool.not_true, Bool.and_false, plainUvs, unnamed, upright]
    rfl

end Quad

namespace FaceGeometry

/-- In exact numbers the default texture coordinates of the corners of a side are
the projections of their places, for any two corners of a box. So wherever the
corners of a face with a locked texture are, the face has the texture coordinates
of a face with the default texture at the places that the two have in common, and
at no other places but those that lie behind one another. Quads take their texture
coordinates from these tables. -/
theorem defaultUvs_world_aligned :
    (∀ (a b : Vec3 ℚ) (side : Direction),
      defaultUvs a b side = lockedUvs (placed a b side) side) ∧
    (∀ (a b : Vec3 ℚ) (side : Direction) (places : Corners (Vec3 ℚ)),
      ∀ locked ∈ places.toList.zip (lockedUvs places side).toList,
      ∀ plain ∈ (placed a b side).toList.zip (defaultUvs a b side).toList,
        (locked.1 = plain.1 → locked.2 = plain.2) ∧
          (locked.2 = plain.2 ↔ SeenAlike locked.1 plain.1 side.axis)) ∧
    ∀ (element : Element) (face : Face) (sprite : Sprite) (direction : Direction)
      (placement : Placement),
      let quad := Quad.ofFace element face sprite direction placement
      (placement.uvLock = true → placement.turns.isIdentity = false →
        quad.uvs = (lockedUvs quad.vertices quad.direction).map (Quad.onSprite sprite)) ∧
      (placement.turns.isIdentity = true → element.rotation = none → face.uv = none →
        Quad.textureTurns face.rotation = 0 →
        quad.direction = direction ∧
          quad.vertices = placed element.fromCorner element.toCorner direction ∧
          quad.uvs = (defaultUvs element.fromCorner element.toCorner direction).map
            (Quad.onSprite sprite)) := by
  refine ⟨defaultUvs_eq_lockedUvs, ?common, ?drawn⟩
  case common =>
    intro a b side places locked isLocked plain isPlain
    rw [defaultUvs_eq_lockedUvs] at isPlain
    have lockedAt := eq_project_of_mem isLocked
    have plainAt := eq_project_of_mem isPlain
    constructor
    · intro same
      rw [lockedAt, plainAt, same]
    · rw [lockedAt, plainAt, project_eq_iff]
  case drawn =>
    intro element face sprite direction placement quad
    exact ⟨Quad.uvs_ofFace_of_locked element face sprite direction placement,
      Quad.ofFace_of_default element face sprite direction placement⟩

end FaceGeometry

end PackModels
