import PackModels.Atlas.Sprite
import PackModels.Model.Display
import PackModels.Model.Element

/-!
Contract: a model as its file defines it.

A definition declares some of the values of a model and leaves the others to
its parent; nothing is resolved here. A texture slot is bound to a material of
the atlas of blocks or, after a hash sign, to another slot. The missing model
is a full cube of the missing texture and stands wherever a model is missing
or its parents run in a circle.
-/

namespace PackModels

/-- From which side an item is lit in a menu. -/
inductive GuiLight where
  | side
  | front
deriving DecidableEq, Repr, Inhabited

namespace GuiLight

def ofName? : String → Option GuiLight
  | "side" => some side
  | "front" => some front
  | _ => none

def name : GuiLight → String
  | side => "side"
  | front => "front"

def usesBlockLight (light : GuiLight) : Bool :=
  light == side

end GuiLight

inductive SlotValue where
  | material (material : Material)
  | reference (slot : String)
deriving DecidableEq, Repr, Inhabited

namespace SlotValue

def parse (text : String) : SlotValue :=
  match Text.dropLeading? '#' text with
  | some slot => reference slot
  | none => material (.ofBlock (.parse text))

end SlotValue

structure ModelDef where
  parent : Option ResourceId
  textures : Table String SlotValue
  ambientOcclusion : Option Bool
  guiLight : Option GuiLight
  display : DisplayTable
  elements : Option (List Element)
deriving Inhabited

namespace ModelDef

/-- The slot that gives the texture of the particles of a model. -/
def particleSlot : String :=
  "particle"

def missingId : ResourceId :=
  ⟨"minecraft", "builtin/missing"⟩

def blank : ModelDef :=
  ⟨none, ∅, none, none, ∅, none⟩

/-- The faces of the missing model: every side, hidden by its own neighbour. -/
def missingFaces : Table Direction Face :=
  Table.ofPairs
    (Direction.all.map
      (fun direction => (direction, ⟨"#missing", some direction, none, 0, -1⟩)))

def missing : ModelDef where
  parent := none
  textures :=
    Table.ofPairs
      [(particleSlot, .material Material.missing), ("missing", .material Material.missing)]
  ambientOcclusion := none
  guiLight := none
  display := ∅
  elements := some [⟨.splat 0, .splat 16, none, true, missingFaces⟩]

def references (definition : ModelDef) : List ResourceId :=
  definition.parent.toList

def decodeTextures : Json.Decoder (Table String SlotValue) :=
  fun depth node =>
    ((Json.Decoder.optional (Json.Decoder.entries some Json.Decoder.text)) depth node).map
      (fun entries =>
        Table.ofPairs
          ((entries.getD []).map (fun entry => (entry.1, SlotValue.parse entry.2))))

def decode : Json.Decoder ModelDef :=
  fun depth node =>
    match Json.Decoder.fields
        ["parent", "textures", "ambientocclusion", "gui_light", "display", "elements"]
        depth node with
    | some (inner, [parent, textures, ambientOcclusion, guiLight, display, elements]) => do
        let parent ← Json.Decoder.withDefault none
          (Json.Decoder.optional (Json.Decoder.textAs ResourceId.parse)) inner parent
        let textures ← Json.Decoder.withDefault ∅ decodeTextures inner textures
        let ambientOcclusion ← Json.Decoder.withDefault none
          (Json.Decoder.optional Json.Decoder.boolean) inner ambientOcclusion
        let guiLight ← Json.Decoder.withDefault none
          (Json.Decoder.optional (Json.Decoder.choice GuiLight.ofName?)) inner guiLight
        let display ← Json.Decoder.withDefault ∅ DisplayTable.decode inner display
        let elements ← Json.Decoder.withDefault none
          (Json.Decoder.optional (Json.Decoder.list Element.decode)) inner elements
        return ⟨parent, textures, ambientOcclusion, guiLight, display, elements⟩
    | _ => none

def parse (id : ResourceId) (text : String) : Except DefinitionError ModelDef :=
  match Json.decode? decode text with
  | some definition => .ok definition
  | none => .error (.malformed id)

end ModelDef

end PackModels
