import PackModels.Block.Definition
import PackModels.Warning

/-!
Contract: every block and every state of a world, addressed by handles.

A registry keeps the first definition of each block id in input order, drops
properties without values and orders the others by name. The states of a block
are the choices of one value for each property, enumerated with the last
property fastest, and the states of the blocks follow each other. A handle is
the position of a state; two handles name the same state only if they are
equal, whatever the values of the states are. A state stores the position of
each value in sixteen bits, and later positions wrap around. Every look-up
with a handle is `none` outside of the registry.
-/

namespace PackModels

/-- The position of a state in a registry. -/
abbrev StateHandle : Type :=
  Nat

/-- The position of a block in a registry. -/
abbrev BlockHandle : Type :=
  Nat

structure BlockState where
  block : BlockHandle
  choice : List Nat
  fluid : FluidState
deriving DecidableEq, Repr, Inhabited

/-- A block of a registry and the handles of its states. -/
structure BlockEntry where
  definition : BlockDef
  firstState : StateHandle
  stateCount : Nat
deriving DecidableEq, Repr, Inhabited

structure Registry where
  blocks : Array BlockEntry
  states : Array BlockState
  byId : Table ResourceId BlockHandle

namespace Registry

/-- The number of positions that a stored value position can tell apart. -/
def positionLimit : Nat :=
  65536

/-- Every choice of one value position for each property, the last property
fastest. -/
def choices : List Property → List (List Nat)
  | [] => [[]]
  | property :: rest =>
      let following := choices rest
      (List.range property.values.size).flatMap
        (fun position => following.map (fun choice => position % positionLimit :: choice))

/-- The value that a choice gives to the first property of a name. -/
def chosen? (block : BlockDef) (choice : List Nat) (name : String) : Option String := do
  let index ← block.propertyIndex? name
  let property ← block.properties[index]?
  let position ← choice[index]?
  property.values[position]?

/-- Reads a level of fluid: decimal digits after an optional plus sign, at
most 255. -/
def level? (text : String) : Option Nat :=
  let digits :=
    match text.toList with
    | '+' :: rest => rest
    | other => other
  if digits.isEmpty || !digits.all Char.isDigit then
    none
  else
    let value := digits.foldl (fun value c => value * 10 + (c.toNat - '0'.toNat)) 0
    if value ≤ 255 then some value else none

/-- The fluid that fills a state. Blocks of a fluid follow their level, a
source where there is none; other blocks hold water where they say so. -/
def fluidOf (block : BlockDef) (choice : List Nat) : FluidState :=
  match block.fluid with
  | some kind =>
      FluidState.ofLevel kind (((chosen? block choice "level").bind level?).getD 0)
  | none =>
      if chosen? block choice "waterlogged" = some "true" then
        .source .water
      else
        .empty

/-- The order of properties in a registry. -/
def propertyOrder (left right : Property) : Bool :=
  (compare left.name right.name).isLE

/-- The block with its usable properties ordered by name. -/
def arrange (block : BlockDef) : BlockDef :=
  { block with
    properties :=
      (block.properties.filter (fun property => !property.values.isEmpty)).mergeSort
        propertyOrder }

def empty : Registry :=
  ⟨#[], #[], ∅⟩

instance : Inhabited Registry :=
  ⟨empty⟩

def add (registry : Registry) (definition : BlockDef) : Registry :=
  let block := arrange definition
  let handle := registry.blocks.size
  let added := (choices block.properties).map
    (fun choice => BlockState.mk handle choice (fluidOf block choice))
  ⟨registry.blocks.push ⟨block, registry.states.size, added.length⟩,
    registry.states ++ added.toArray,
    registry.byId.insert block.id handle⟩

/-- Registers one definition, or complains about a second one of its id. -/
def step (built : Registry × List Warning) (definition : BlockDef) :
    Registry × List Warning :=
  if built.1.byId.contains definition.id then
    (built.1, built.2 ++ [.duplicateBlock definition.id])
  else
    (built.1.add definition, built.2)

/-- The registry of a list of definitions, with its complaints. -/
def ofDefinitions (definitions : List BlockDef) : Registry × List Warning :=
  definitions.foldl step (empty, [])

variable (registry : Registry)

def blockCount : Nat :=
  registry.blocks.size

def stateCount : Nat :=
  registry.states.size

def handles : List StateHandle :=
  List.range registry.stateCount

def blockOfId? (id : ResourceId) : Option BlockHandle :=
  registry.byId[id]?

def statesOf (block : BlockHandle) : List StateHandle :=
  match registry.blocks[block]? with
  | some entry => List.range' entry.firstState entry.stateCount
  | none => []

def defaultState? (block : BlockHandle) : Option StateHandle :=
  registry.blocks[block]?.map BlockEntry.firstState

def state? (state : StateHandle) : Option BlockState :=
  registry.states[state]?

def blockOf? (state : StateHandle) : Option BlockDef := do
  let found ← registry.state? state
  let entry ← registry.blocks[found.block]?
  return entry.definition

def value? (state : StateHandle) (property : String) : Option String := do
  let found ← registry.state? state
  let block ← registry.blockOf? state
  chosen? block found.choice property

/-- The value of the property at a position of the block of a state. -/
def valueAt? (state : StateHandle) (position : Nat) : Option String := do
  let found ← registry.state? state
  let block ← registry.blockOf? state
  let property ← block.properties[position]?
  let value ← found.choice[position]?
  property.values[value]?

/-- The first state of the same block in which one property has another value
and every other property keeps its own. -/
def withValue? (state : StateHandle) (property value : String) : Option StateHandle := do
  let found ← registry.state? state
  let block ← registry.blockOf? state
  let index ← block.propertyIndex? property
  let changed ← block.properties[index]?
  let position ← changed.values.findIdx? (· == value)
  let choice := found.choice.set index (position % positionLimit)
  (registry.statesOf found.block).find?
    (fun candidate =>
      match registry.state? candidate with
      | some other => other.choice == choice
      | none => false)

def shape? (state : StateHandle) : Option RenderShape :=
  (registry.blockOf? state).map BlockDef.shape

def fluid? (state : StateHandle) : Option FluidState :=
  (registry.state? state).map BlockState.fluid

/-- The pairs of property name and value of a choice, in property order. -/
def assignment (block : BlockDef) (choice : List Nat) : List (String × String) :=
  (block.properties.zip choice).map
    (fun pair => (pair.1.name, pair.1.values[pair.2]?.getD ""))

def renderAssignment (pairs : List (String × String)) : String :=
  Text.join "," (pairs.map (fun pair => pair.1 ++ "=" ++ pair.2))

/-- The variant key of a state: each property with its value, in order. -/
def variantKey? (state : StateHandle) : Option String := do
  let found ← registry.state? state
  let block ← registry.blockOf? state
  return renderAssignment (assignment block found.choice)

def stateId? (state : StateHandle) : Option StateId := do
  let block ← registry.blockOf? state
  let key ← registry.variantKey? state
  return ⟨block.id, key⟩

end Registry

end PackModels
