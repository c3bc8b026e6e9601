import PackModels.Direction

/-!
Contract: rotations of space in binary32.

Rotations are unit quaternions. Every product and sum is written in the order
in which it is rounded, so the tables that follow from them are exact and not
only close.
-/

namespace PackModels

/-- A rotation of space, or any quaternion. -/
structure Quaternion where
  x : Float32
  y : Float32
  z : Float32
  w : Float32

namespace Quaternion

/-- The number of radians in one degree. -/
def radiansPerDegree : Float32 :=
  0.017453292519943295

/-- An angle in degrees as an angle in radians. -/
def radians (degrees : Float32) : Float32 :=
  degrees * radiansPerDegree

/-- The rotation by an angle in radians about a unit axis. -/
def aboutAxis (axis : Vec3 Float32) (angle : Float32) : Quaternion :=
  let half := angle * 0.5
  let part := axis.scale half.sin
  ⟨part.x, part.y, part.z, half.cos⟩

/-- The rotation by an angle in radians about the first axis. -/
def aboutX (angle : Float32) : Quaternion :=
  let half := angle * 0.5
  ⟨half.sin, 0, 0, half.cos⟩

/-- The rotation by an angle in radians about the second axis. -/
def aboutY (angle : Float32) : Quaternion :=
  let half := angle * 0.5
  ⟨0, half.sin, 0, half.cos⟩

/-- The rotation by an angle in radians about the third axis. -/
def aboutZ (angle : Float32) : Quaternion :=
  let half := angle * 0.5
  ⟨0, 0, half.sin, half.cos⟩

/-- The rotation that turns by `right` and then by `left`. -/
instance : Mul Quaternion :=
  ⟨fun left right =>
    ⟨left.w * right.x + left.x * right.w + left.y * right.z - left.z * right.y,
      left.w * right.y - left.x * right.z + left.y * right.w + left.z * right.x,
      left.w * right.z + left.x * right.y - left.y * right.x + left.z * right.w,
      left.w * right.w - left.x * right.x - left.y * right.y - left.z * right.z⟩⟩

def turn (q : Quaternion) (v : Vec3 Float32) : Vec3 Float32 :=
  let part : Vec3 Float32 := ⟨q.x, q.y, q.z⟩
  v.scale (q.w * q.w - part.dot part) + part.scale (v.dot part * 2)
    + (part.cross v).scale (q.w * 2)

def axes (q : Quaternion) : Vec3 Float32 × Vec3 Float32 × Vec3 Float32 :=
  let x2 := q.x + q.x
  let y2 := q.y + q.y
  let z2 := q.z + q.z
  let xx := q.x * x2
  let xy := q.x * y2
  let xz := q.x * z2
  let yy := q.y * y2
  let yz := q.y * z2
  let zz := q.z * z2
  let wx := q.w * x2
  let wy := q.w * y2
  let wz := q.w * z2
  (⟨1 - (yy + zz), xy + wz, xz - wy⟩,
    ⟨xy - wz, 1 - (xx + zz), yz + wx⟩,
    ⟨xz + wy, yz - wx, 1 - (xx + yy)⟩)

end Quaternion

/-- A turn of a whole model in quarter turns about the first and then the
second axis. -/
structure QuarterTurns where
  x : Fin 4
  y : Fin 4
deriving DecidableEq, Hashable, Repr, Inhabited

namespace QuarterTurns

def identity : QuarterTurns :=
  ⟨0, 0⟩

/-- The quarter turns in a number of degrees, if it holds a whole number of
them. -/
def quarters? (degrees : Int) : Option (Fin 4) :=
  if degrees % 90 = 0 then
    some ⟨(degrees / 90 % 4).toNat, by omega⟩
  else
    none

/-- The turn by two angles in degrees, if both are multiples of a quarter. -/
def ofDegrees? (x y : Int) : Option QuarterTurns :=
  match quarters? x, quarters? y with
  | some xQuarters, some yQuarters => some ⟨xQuarters, yQuarters⟩
  | _, _ => none

def xDegrees (turns : QuarterTurns) : Nat :=
  turns.x.val * 90

def yDegrees (turns : QuarterTurns) : Nat :=
  turns.y.val * 90

def isIdentity (turns : QuarterTurns) : Bool :=
  turns == identity

/-- The turn as a rotation of space. Both angles run against the usual sense. -/
def rotation (turns : QuarterTurns) : Quaternion :=
  .aboutY (-Quaternion.radians (Float32.ofNat turns.yDegrees))
    * .aboutX (-Quaternion.radians (Float32.ofNat turns.xDegrees))

def turnFace (turns : QuarterTurns) (direction : Direction) : Direction :=
  if turns.isIdentity then
    direction
  else
    Direction.nearest (turns.rotation.turn direction.normal)

/-- The order of the angle about the first axis and then of the other. -/
instance : Ord QuarterTurns :=
  ⟨compareLex (compareOn QuarterTurns.x) (compareOn QuarterTurns.y)⟩

instance : Std.TransOrd QuarterTurns :=
  inferInstanceAs
    (Std.TransCmp (compareLex (compareOn QuarterTurns.x) (compareOn QuarterTurns.y)))

instance : Std.LawfulEqOrd QuarterTurns where
  eq_of_compare {left right} equal := by
    have parts := Ordering.then_eq_eq.mp equal
    cases left
    cases right
    simp_all [compareOn]

end QuarterTurns

/-- How a model is placed in the world when it is baked. -/
structure Placement where
  turns : QuarterTurns
  /-- Whether textures keep to the axes of the world when the model turns. -/
  uvLock : Bool
deriving DecidableEq, Hashable, Repr, Inhabited

namespace Placement

def identity : Placement :=
  ⟨QuarterTurns.identity, false⟩

instance : Ord Placement :=
  ⟨compareLex (compareOn Placement.turns) (compareOn Placement.uvLock)⟩

instance : Std.TransOrd Placement :=
  inferInstanceAs
    (Std.TransCmp (compareLex (compareOn Placement.turns) (compareOn Placement.uvLock)))

instance : Std.LawfulEqOrd Placement where
  eq_of_compare {left right} equal := by
    have parts := Ordering.then_eq_eq.mp equal
    cases left
    cases right
    simp_all [compareOn]

end Placement

end PackModels
