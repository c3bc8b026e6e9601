import PackModels.Id

/-!
Contract: what a block is before its states are enumerated.

A block has named properties with ordered values, a render shape and, for a
fluid block, a kind of fluid. Definitions grow by adding properties: the first
mention of a name keeps the values as they are given, and a later mention adds
only the values that are not there yet.
-/

namespace PackModels

/-- Whether a state draws a model at all. -/
inductive RenderShape where
  | invisible
  | model
deriving DecidableEq, Repr, Inhabited

inductive FluidKind where
  | water
  | lava
deriving DecidableEq, Repr, Inhabited

namespace FluidKind

def ofName? : String → Option FluidKind
  | "water" => some water
  | "lava" => some lava
  | _ => none

def name : FluidKind → String
  | water => "water"
  | lava => "lava"

end FluidKind

inductive FluidState where
  | empty
  | source (fluid : FluidKind)
  | flowing (fluid : FluidKind) (amount : Nat) (falling : Bool)
deriving DecidableEq, Repr, Inhabited

namespace FluidState

/-- The fluid of a level: level zero is a source, the next seven hold ever
less, and every other level falls at full height. -/
def ofLevel (fluid : FluidKind) (level : Nat) : FluidState :=
  if level = 0 then
    source fluid
  else if level ≤ 7 then
    flowing fluid (8 - level) false
  else
    flowing fluid 8 true

end FluidState

/-- A property of a block and the values it can take, in order. -/
structure Property where
  name : String
  values : Array String
deriving DecidableEq, Repr, Inhabited

/-- A block before its states are enumerated. -/
structure BlockDef where
  id : ResourceId
  properties : List Property
  shape : RenderShape
  fluid : Option FluidKind
deriving DecidableEq, Repr, Inhabited

namespace BlockDef

/-- A visible block without properties. -/
def new (id : ResourceId) : BlockDef :=
  ⟨id, [], .model, none⟩

def addValues (present : Array String) (values : List String) : Array String :=
  values.foldl
    (fun all value => if all.contains value then all else all.push value)
    present

/-- Adds values to the first property of a name, or the property itself. -/
def mergeProperty (name : String) (values : List String) : List Property → List Property
  | [] => [⟨name, values.toArray⟩]
  | property :: rest =>
      if property.name = name then
        ⟨property.name, addValues property.values values⟩ :: rest
      else
        property :: mergeProperty name values rest

def withProperty (block : BlockDef) (name : String) (values : List String) : BlockDef :=
  { block with properties := mergeProperty name values block.properties }

def makeInvisible (block : BlockDef) : BlockDef :=
  { block with shape := .invisible }

def makeFluid (block : BlockDef) (kind : FluidKind) : BlockDef :=
  { block with fluid := some kind, shape := .invisible }

def propertyIndex? (block : BlockDef) (name : String) : Option Nat :=
  block.properties.findIdx? (fun property => property.name == name)

end BlockDef

end PackModels
