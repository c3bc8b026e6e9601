import PackModels.Binding.StateFile
import PackModels.Settings
import Std.Data.HashMap

/-!
Contract: which states look the same, so that one may replace another unseen.

The look of a visible state is decided by its binding and by the values of the
properties that tint its block. States of one look that at least two states
have form a group; groups are numbered from one in the order of their first
states. A state without a binding is in no group, because what it shows in the
end is not known from its binding, and a state that draws nothing is in the
group of those. Groups are made before anything is baked.
-/

namespace PackModels

/-- Names the properties that the tint of a block depends on. -/
abbrev TintSource : Type :=
  BlockDef → List String

/-- A fixed list of tint properties for each block. -/
abbrev TintTable : Type :=
  Table ResourceId (List String)

namespace TintTable

/-- The tint properties of the settings. Of the names that denote one id, the
last in key order counts. -/
def ofSettings (settings : Settings) : TintTable :=
  Table.ofPairs
    (settings.tintProperties.toList.map
      (fun entry => (ResourceId.parse entry.1, entry.2)))

/-- The tint properties of a block; a block that is not listed has none. -/
def source (table : TintTable) : TintSource :=
  fun block => table[block.id]?.getD []

end TintTable

/-- What decides the look of a visible state. -/
structure Look where
  binding : Binding
  /-- The values of the tint properties that the block has. -/
  tints : List String
deriving DecidableEq, Hashable

inductive Group where
  | invisible
  | alone
  | shared (number : Nat)
deriving DecidableEq, Repr, Inhabited

namespace Group

/-- The written form of a group: groups of states that draw something are
positive. -/
def code : Group → Int
  | invisible => 0
  | alone => -1
  | shared number => Int.ofNat number

end Group

namespace Look

/-- The values of the tint properties of a state. Names that its block does
not have are passed over. -/
def tintsOf (tints : TintSource) (registry : Registry) (state : StateHandle) : List String :=
  match registry.blockOf? state with
  | none => []
  | some block =>
      ((tints block).filterMap block.propertyIndex?).filterMap (registry.valueAt? state)

def isInvisible (registry : Registry) (state : StateHandle) : Bool :=
  registry.shape? state == some .invisible

def bindingOf? (registry : Registry) (bindings : BindingTable) (state : StateHandle) :
    Option Binding :=
  (registry.stateId? state).bind (fun id => bindings[id]?)

/-- The look of a state, if it is visible and bound. -/
def ofState? (tints : TintSource) (registry : Registry) (bindings : BindingTable)
    (state : StateHandle) : Option Look :=
  if isInvisible registry state then
    none
  else
    (bindingOf? registry bindings state).map
      (fun binding => ⟨binding, tintsOf tints registry state⟩)

def counts (looks : List Look) : Std.HashMap Look Nat :=
  looks.foldl (fun counts look => counts.insert look (counts.getD look 0 + 1)) ∅

/-- The looks of at least two states, numbered from one in the order of their
first states. -/
def numbers (looks : List Look) : Std.HashMap Look Nat :=
  let counted := counts looks
  looks.foldl
    (fun numbers look =>
      if 1 < counted.getD look 0 then
        numbers.insertIfNew look (numbers.size + 1)
      else
        numbers)
    ∅

end Look

structure Groups where
  members : Array Group
  count : Nat
deriving DecidableEq, Repr, Inhabited

namespace Groups

def empty : Groups :=
  ⟨#[], 0⟩

/-- The group of a state, given the numbers of the looks that several share. -/
def place (numbers : Std.HashMap Look Nat) (hidden : Bool) (look : Option Look) : Group :=
  if hidden then
    .invisible
  else
    match look with
    | none => .alone
    | some found =>
        match numbers[found]? with
        | none => .alone
        | some number => .shared number

def build (tints : TintSource) (registry : Registry) (bindings : BindingTable) : Groups :=
  let looks := registry.handles.map (Look.ofState? tints registry bindings)
  let numbers := Look.numbers (looks.filterMap id)
  ⟨((registry.handles.zip looks).map
      (fun entry => place numbers (Look.isInvisible registry entry.1) entry.2)).toArray,
    numbers.size⟩

def asksForTints (registry : Registry) : Bool :=
  registry.handles.any (fun state => !Look.isInvisible registry state)

/-- The group of a state. A state that is not known is in none. -/
def group (groups : Groups) (state : StateHandle) : Group :=
  groups.members[state]?.getD .alone

/-- Whether a state must be drawn again when another one replaces it: not if
nothing changes, or if both are in one group and hold the same fluid. It is
`none` where the fluid is asked for and the registry does not have a state. -/
def requiresRender? (groups : Groups) (registry : Registry) (old new : StateHandle) :
    Option Bool :=
  if old = new then
    some false
  else if groups.group old = .alone ∨ groups.group old ≠ groups.group new then
    some true
  else do
    let before ← registry.fluid? old
    let after ← registry.fluid? new
    return before != after

end Groups

end PackModels
