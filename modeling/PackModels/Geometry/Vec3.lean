/-!
Contract: vectors of three coordinates over any kind of number.

Only componentwise arithmetic lives here. The tables of the block geometry are
stated over an arbitrary kind of number, so that the same tables can be read
in binary32, in which they are computed, and exactly.
-/

namespace PackModels

structure Vec3 (α : Type) where
  x : α
  y : α
  z : α
deriving DecidableEq, Repr, Inhabited

namespace Vec3

variable {α β : Type}

def splat (value : α) : Vec3 α :=
  ⟨value, value, value⟩

def map (f : α → β) (v : Vec3 α) : Vec3 β :=
  ⟨f v.x, f v.y, f v.z⟩

def all (test : α → Bool) (v : Vec3 α) : Bool :=
  test v.x && test v.y && test v.z

def toList (v : Vec3 α) : List α :=
  [v.x, v.y, v.z]

instance [Add α] : Add (Vec3 α) :=
  ⟨fun v w => ⟨v.x + w.x, v.y + w.y, v.z + w.z⟩⟩

instance [Sub α] : Sub (Vec3 α) :=
  ⟨fun v w => ⟨v.x - w.x, v.y - w.y, v.z - w.z⟩⟩

instance [Mul α] : Mul (Vec3 α) :=
  ⟨fun v w => ⟨v.x * w.x, v.y * w.y, v.z * w.z⟩⟩

def scale [Mul α] (v : Vec3 α) (factor : α) : Vec3 α :=
  v.map (· * factor)

def dot [Add α] [Mul α] (v w : Vec3 α) : α :=
  v.x * w.x + v.y * w.y + v.z * w.z

def cross [Sub α] [Mul α] (v w : Vec3 α) : Vec3 α :=
  ⟨v.y * w.z - w.y * v.z, v.z * w.x - w.z * v.x, v.x * w.y - w.x * v.y⟩

end Vec3

end PackModels
