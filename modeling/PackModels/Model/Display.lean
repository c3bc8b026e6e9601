import PackModels.Geometry.Rotation
import PackModels.Json.Decode

/-!
Contract: how a model is shown as an item.

A model file may declare a transform for some of the eight places in which an
item is shown. Along a chain of models each place takes the transform of the
first model that declares it; a left hand that nobody declares is shown like
the right hand of the same view, and any other place is not transformed.
Shifts are written in sixteenths of a block and limited to five blocks,
scales are limited to four.
-/

namespace PackModels

inductive DisplayContext where
  | thirdPersonRight
  | thirdPersonLeft
  | firstPersonRight
  | firstPersonLeft
  | head
  | gui
  | ground
  | fixed
deriving DecidableEq, Repr, Inhabited

namespace DisplayContext

def all : List DisplayContext :=
  [thirdPersonRight, thirdPersonLeft, firstPersonRight, firstPersonLeft, head, gui, ground,
    fixed]

/-- The position of a place in `all`. -/
def index : DisplayContext → Nat
  | thirdPersonRight => 0
  | thirdPersonLeft => 1
  | firstPersonRight => 2
  | firstPersonLeft => 3
  | head => 4
  | gui => 5
  | ground => 6
  | fixed => 7

instance : Ord DisplayContext :=
  ⟨compareOn index⟩

instance : Std.TransOrd DisplayContext :=
  inferInstanceAs (Std.TransCmp (compareOn index))

instance : Std.LawfulEqOrd DisplayContext where
  eq_of_compare {left right} equal := by
    cases left <;> cases right <;> first | rfl | exact absurd equal (by decide)

def ofName? : String → Option DisplayContext
  | "thirdperson_righthand" => some thirdPersonRight
  | "thirdperson_lefthand" => some thirdPersonLeft
  | "firstperson_righthand" => some firstPersonRight
  | "firstperson_lefthand" => some firstPersonLeft
  | "head" => some head
  | "gui" => some gui
  | "ground" => some ground
  | "fixed" => some fixed
  | _ => none

def name : DisplayContext → String
  | thirdPersonRight => "thirdperson_righthand"
  | thirdPersonLeft => "thirdperson_lefthand"
  | firstPersonRight => "firstperson_righthand"
  | firstPersonLeft => "firstperson_lefthand"
  | head => "head"
  | gui => "gui"
  | ground => "ground"
  | fixed => "fixed"

/-- The right hand that a left hand follows when nothing is declared for it. -/
def rightHand? : DisplayContext → Option DisplayContext
  | thirdPersonLeft => some thirdPersonRight
  | firstPersonLeft => some firstPersonRight
  | _ => none

end DisplayContext

/-- A rotation in degrees, a shift in blocks and a scale. -/
structure Transform where
  rotation : Vec3 Float32
  shift : Vec3 Float32
  scale : Vec3 Float32
deriving Inhabited

namespace Transform

def identity : Transform :=
  ⟨.splat 0, .splat 0, .splat 1⟩

def sameVector (left right : Vec3 Float32) : Bool :=
  left.x == right.x && left.y == right.y && left.z == right.z

def same (left right : Transform) : Bool :=
  sameVector left.rotation right.rotation && sameVector left.shift right.shift
    && sameVector left.scale right.scale

def clamp (low high value : Float32) : Float32 :=
  let raised := if value < low then low else value
  if high < raised then high else raised

def ofFile (rotation shift scale : Vec3 Float32) : Transform :=
  ⟨rotation, (shift.map (clamp (-80) 80)).map (· / 16), scale.map (clamp (-4) 4)⟩

/-- The matrix of a transform, column after column: first the scale, then the
rotation about the third, the second and the first axis, then the shift. -/
def matrix (transform : Transform) : List Float32 :=
  let angles := transform.rotation.map Quaternion.radians
  let rotation :=
    Quaternion.aboutX angles.x * Quaternion.aboutY angles.y * Quaternion.aboutZ angles.z
  let axes := rotation.axes
  (axes.1.scale transform.scale.x).toList ++ [0]
    ++ (axes.2.1.scale transform.scale.y).toList ++ [0]
    ++ (axes.2.2.scale transform.scale.z).toList ++ [0]
    ++ transform.shift.toList ++ [1]

def decode : Json.Decoder Transform :=
  fun depth node =>
    match Json.Decoder.fields ["rotation", "translation", "scale"] depth node with
    | some (inner, [rotation, shift, scale]) => do
        let rotation ←
          Json.Decoder.withDefault (.splat 0) Json.Decoder.vec3 inner rotation
        let shift ←
          Json.Decoder.withDefault (.splat 0) Json.Decoder.vec3 inner shift
        let scale ← Json.Decoder.withDefault (.splat 1) Json.Decoder.vec3 inner scale
        return ofFile rotation shift scale
    | _ => none

end Transform

/-- The transforms that one model file declares. -/
abbrev DisplayTable : Type :=
  Table DisplayContext Transform

namespace DisplayTable

/-- The table of the entries of a file. Names of unknown places are dropped,
and the last entry of a place stays. -/
def ofEntries (entries : List (String × Transform)) : DisplayTable :=
  Table.ofPairs
    ((Table.ofPairs entries).toList.filterMap
      (fun entry => (DisplayContext.ofName? entry.1).map (fun context => (context, entry.2))))

def decode : Json.Decoder DisplayTable :=
  fun depth node =>
    (Json.Decoder.entries some Transform.decode depth node).map ofEntries

end DisplayTable

abbrev Transforms : Type :=
  DisplayContext → Transform

namespace Transforms

def none : Transforms :=
  fun _ => Transform.identity

def isNone (transforms : Transforms) : Bool :=
  DisplayContext.all.all (fun context => (transforms context).same Transform.identity)

/-- The transform that the first model of a chain to declare one gives to a
place. -/
def declared? (chain : List DisplayTable) (context : DisplayContext) : Option Transform :=
  chain.findSome? (fun table => table[context]?)

/-- The transforms of a chain of models, the most derived one first. -/
def resolve (chain : List DisplayTable) : Transforms :=
  fun context =>
    match declared? chain context with
    | some transform => transform
    | Option.none =>
        match context.rightHand? with
        | some right => (declared? chain right).getD Transform.identity
        | Option.none => Transform.identity

end Transforms

end PackModels
