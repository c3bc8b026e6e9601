import PackModels.Model.Definition

/-!
Contract: the materials behind the texture slots of a chain of models.

The first model of a chain that binds a slot decides it. A slot bound to
another slot has the material of that one, however long the way; a way that
comes back to a slot or ends at an unbound one leads nowhere.
-/

namespace PackModels

/-- The material behind each slot that has one. -/
structure SlotTable where
  materials : Table String Material

namespace SlotTable

/-- What each slot is bound to by the first model of a chain that binds it. -/
def bindings (chain : List ModelDef) : Table String SlotValue :=
  Table.ofPairsFirst (chain.flatMap (fun definition => definition.textures.toList))

/-- Follows references from a slot through a number of slots. -/
def follow (bound : Table String SlotValue) : Nat → String → Option Material
  | 0, _ => none
  | steps + 1, slot =>
      match bound[slot]? with
      | none => none
      | some (.material material) => some material
      | some (.reference next) => follow bound steps next

/-- The materials behind the slots of a chain, the most derived model first. A
way through more slots than are bound comes back to one of them. -/
def resolve (chain : List ModelDef) : SlotTable :=
  let bound := bindings chain
  ⟨Table.ofPairs
    (bound.toList.filterMap
      (fun entry => (follow bound bound.size entry.1).map
        (fun material => (entry.1, material))))⟩

/-- The material of a slot, whose name may be written after a hash sign. -/
def material? (slots : SlotTable) (slot : String) : Option Material :=
  slots.materials[(Text.dropLeading? '#' slot).getD slot]?

def size (slots : SlotTable) : Nat :=
  slots.materials.size

end SlotTable

end PackModels
