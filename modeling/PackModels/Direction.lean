import PackModels.Geometry.Vec3

/-!
Contract: the six faces of a block.

Directions are ordered and numbered from `down` to `east`; every list of faces
and every table of culled quads follows that order. `nearest` picks the
direction whose normal has the greatest scalar product with a vector, the
first of several, and `north` for a vector that compares with nothing.
-/

namespace PackModels

inductive Axis where
  | x
  | y
  | z
deriving DecidableEq, Repr, Inhabited

inductive Direction where
  | down
  | up
  | north
  | south
  | west
  | east
deriving DecidableEq, Repr, Inhabited

namespace Direction

def all : List Direction :=
  [down, up, north, south, west, east]

/-- The position of a direction in `all`. -/
def index : Direction → Nat
  | down => 0
  | up => 1
  | north => 2
  | south => 3
  | west => 4
  | east => 5

instance : Ord Direction :=
  ⟨compareOn index⟩

instance : Std.TransOrd Direction :=
  inferInstanceAs (Std.TransCmp (compareOn index))

instance : Std.LawfulEqOrd Direction where
  eq_of_compare {left right} equal := by
    cases left <;> cases right <;> first | rfl | exact absurd equal (by decide)

def name : Direction → String
  | down => "down"
  | up => "up"
  | north => "north"
  | south => "south"
  | west => "west"
  | east => "east"

/-- Reads a direction; packs may spell the lowest face in a second way. -/
def ofName? : String → Option Direction
  | "down" => some down
  | "bottom" => some down
  | "up" => some up
  | "north" => some north
  | "south" => some south
  | "west" => some west
  | "east" => some east
  | _ => none

def opposite : Direction → Direction
  | down => up
  | up => down
  | north => south
  | south => north
  | west => east
  | east => west

def axis : Direction → Axis
  | down => .y
  | up => .y
  | north => .z
  | south => .z
  | west => .x
  | east => .x

def normal {α : Type} [OfNat α 0] [OfNat α 1] [Neg α] : Direction → Vec3 α
  | down => ⟨0, -1, 0⟩
  | up => ⟨0, 1, 0⟩
  | north => ⟨0, 0, -1⟩
  | south => ⟨0, 0, 1⟩
  | west => ⟨-1, 0, 0⟩
  | east => ⟨1, 0, 0⟩

/-- The binary32 number below every other one. -/
def lowest : Float32 :=
  Float32.ofBits 0xff800000

/-- The direction whose normal points most nearly along a vector. -/
def nearest (v : Vec3 Float32) : Direction :=
  (all.foldl
    (fun best direction =>
      let product := (normal direction : Vec3 Float32).dot v
      if product > best.2 then (direction, product) else best)
    (north, lowest)).1

end Direction

namespace Axis

def ofName? : String → Option Axis
  | "x" => some .x
  | "y" => some .y
  | "z" => some .z
  | _ => none

def name : Axis → String
  | .x => "x"
  | .y => "y"
  | .z => "z"

end Axis

end PackModels
