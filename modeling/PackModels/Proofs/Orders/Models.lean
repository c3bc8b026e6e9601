import PackModels.Baking.Bake
import PackModels.Proofs.Orders.Arrange

/-!
Contract: a model is read and baked alike in every order.

The texture slots and the transforms in the text of a model have no order once
they are read, and neither have the slots of a model when those of a chain are
brought together. What is taken from them has distinct keys, so it is the same
table in every order. The first model of a chain that binds a slot decides it,
whatever comes before the slot in that model.

Owns: reading and baking with the orders spelled out.
-/

namespace PackModels

/-! ## Reading a model -/

namespace ModelDef

variable (orders : Orders) (id : ResourceId)

/-- Reads the texture slots of a model, which are gone through once they are
read. -/
def decodeTexturesIn : Json.Decoder (Table String SlotValue) :=
  fun depth node =>
    ((Json.Decoder.optional (Json.Decoder.entries some Json.Decoder.text)) depth node).map
      (fun entries =>
        Table.ofPairs
          ((orders.arrange (.writtenSlots id) (Table.ofPairs (entries.getD [])).toList).map
            (fun entry => (entry.1, SlotValue.parse entry.2))))

/-- Reads the transforms of a model, which are gone through once they are read. -/
def decodeDisplayIn : Json.Decoder DisplayTable :=
  fun depth node =>
    (Json.Decoder.entries some Transform.decode depth node).map
      (fun entries =>
        Table.ofPairs
          ((orders.arrange (.writtenDisplay id) (Table.ofPairs entries).toList).filterMap
            (fun entry =>
              (DisplayContext.ofName? entry.1).map (fun context => (context, entry.2)))))

/-- Reads a model, given how its texture slots and its transforms are read. -/
def decodeWith (decodeSlots : Json.Decoder (Table String SlotValue))
    (decodeDisplay : Json.Decoder DisplayTable) : Json.Decoder ModelDef :=
  fun depth node =>
    match Json.Decoder.fields
        ["parent", "textures", "ambientocclusion", "gui_light", "display", "elements"]
        depth node with
    | some (inner, [parent, textures, ambientOcclusion, guiLight, display, elements]) => do
        let parent ← Json.Decoder.withDefault none
          (Json.Decoder.optional (Json.Decoder.textAs ResourceId.parse)) inner parent
        let textures ← Json.Decoder.withDefault ∅ decodeSlots inner textures
        let ambientOcclusion ← Json.Decoder.withDefault none
          (Json.Decoder.optional Json.Decoder.boolean) inner ambientOcclusion
        let guiLight ← Json.Decoder.withDefault none
          (Json.Decoder.optional (Json.Decoder.choice GuiLight.ofName?)) inner guiLight
        let display ← Json.Decoder.withDefault ∅ decodeDisplay inner display
        let elements ← Json.Decoder.withDefault none
          (Json.Decoder.optional (Json.Decoder.list Element.decode)) inner elements
        return ⟨parent, textures, ambientOcclusion, guiLight, display, elements⟩
    | _ => none

def parseIn (text : String) : Except DefinitionError ModelDef :=
  match Json.decode? (decodeWith (decodeTexturesIn orders id) (decodeDisplayIn orders id)) text with
  | some definition => .ok definition
  | none => .error (.malformed id)

theorem decodeWith_eq : decodeWith decodeTextures DisplayTable.decode = decode :=
  rfl

/-- Slots with distinct names are the same table in any order. -/
theorem decodeTexturesIn_eq : decodeTexturesIn orders id = decodeTextures := by
  funext depth node
  unfold decodeTexturesIn decodeTextures
  congr 1
  funext entries
  have permutation := orders.perm (.writtenSlots id) (Table.ofPairs (entries.getD [])).toList
  have distinct : (((Table.ofPairs (entries.getD [])).toList.map
      (fun entry => (entry.1, SlotValue.parse entry.2))).map Prod.fst).Nodup := by
    rw [List.map_map]
    exact (Table.ofPairs (entries.getD [])).nodup_toList
  rw [Table.ofPairs_perm (permutation.map _) distinct, Table.ofPairs_map_toList SlotValue.parse,
    Table.map_ofPairs]

theorem name_of_ofName? {name : String} {context : DisplayContext}
    (named : DisplayContext.ofName? name = some context) : name = context.name := by
  unfold DisplayContext.ofName? at named
  split at named <;> cases named <;> rfl

/-- No two names are those of one place. -/
theorem decodeDisplayIn_eq : decodeDisplayIn orders id = DisplayTable.decode := by
  funext depth node
  unfold decodeDisplayIn DisplayTable.decode DisplayTable.ofEntries
  congr 1
  funext entries
  apply Table.ofPairs_filterMap_perm (orders.perm _ _)
  intro left right pair pair' picked picked' same
  obtain ⟨context, named, rfl⟩ := Option.map_eq_some_iff.mp picked
  obtain ⟨context', named', rfl⟩ := Option.map_eq_some_iff.mp picked'
  rw [name_of_ofName? named, name_of_ofName? named', show context = context' from same]

theorem parseIn_eq (text : String) : parseIn orders id text = parse id text := by
  rw [parseIn, decodeTexturesIn_eq, decodeDisplayIn_eq, decodeWith_eq]
  rfl

end ModelDef

/-! ## Baking a model -/

namespace SlotTable

variable (orders : Orders) (bake : Nat) (chain : List ModelDef)

/-- What each slot is bound to, where the slots of each model are gone through
in some order. -/
def bindingsIn : Table String SlotValue :=
  Table.ofPairsFirst (chain.zipIdx.flatMap
    (fun model => orders.arrange (.slots bake model.2) model.1.textures.toList))

/-- The materials behind the slots, which are gone through in some order. -/
def resolveIn : SlotTable :=
  let bound := bindingsIn orders bake chain
  ⟨Table.ofPairs
    ((orders.arrange (.slotNames bake) bound.toList).filterMap
      (fun entry => (follow bound bound.size entry.1).map
        (fun material => (entry.1, material))))⟩

/-- The first model that binds a slot decides it, in whatever order. -/
theorem bindingsIn_eq : bindingsIn orders bake chain = bindings chain := by
  apply Std.ExtTreeMap.ext_getElem?
  intro slot
  unfold bindingsIn bindings
  have found : ∀ model : ModelDef × Nat,
      (orders.arrange (.slots bake model.2) model.1.textures.toList).find?
          (fun pair => pair.1 == slot) =
        model.1.textures.toList.find? (fun pair => pair.1 == slot) := by
    intro model
    rw [Table.find?_of_perm (orders.perm _ _), Table.find?_toList]
  rw [Table.getElem?_ofPairsFirst, Table.getElem?_ofPairsFirst, List.find?_flatMap,
    List.find?_flatMap]
  simp only [found]
  calc (chain.zipIdx.findSome? (fun model =>
        model.1.textures.toList.find? (fun pair => pair.1 == slot))).map Prod.snd
      = ((chain.zipIdx.map Prod.fst).findSome? (fun model =>
          model.textures.toList.find? (fun pair => pair.1 == slot))).map Prod.snd := by
        rw [List.findSome?_map]
        rfl
    _ = (chain.findSome? (fun model =>
          model.textures.toList.find? (fun pair => pair.1 == slot))).map Prod.snd := by
        rw [List.zipIdx_map_fst]

theorem resolveIn_eq : resolveIn orders bake chain = resolve chain := by
  unfold resolveIn resolve
  rw [bindingsIn_eq]
  dsimp only
  rw [Table.ofPairs_filterMap_perm (orders.perm _ _)]
  intro left right pair pair' picked picked' same
  obtain ⟨material, _, rfl⟩ := Option.map_eq_some_iff.mp picked
  obtain ⟨material', _, rfl⟩ := Option.map_eq_some_iff.mp picked'
  exact same

end SlotTable

namespace Bake

/-- Bakes what a chain of models comes to. -/
def inherit (atlases : AtlasSet) (name : String) (inherited : Inherited) (placement : Placement)
    (misses : Misses) : Except BakeError BakedModel × Misses :=
  let subject : Subject := ⟨atlases, name, inherited.slots, placement⟩
  let particle := slotSprite subject ModelDef.particleSlot misses
  match elements subject inherited.elements particle.2 with
  | (.error error, after) => (.error error, after)
  | (.ok filed, after) =>
      (.ok
        { quads := BakedModel.filedUnder filed
          ambientOcclusion := inherited.ambientOcclusion
          gui3d := true
          usesBlockLight := inherited.guiLight.usesBlockLight
          particle := particle.1
          transforms := inherited.transforms },
        after)

/-- Bakes a model, where the texture slots of its chain are gone through in some
order. -/
def modelIn (orders : Orders) (bake : Nat) (models : ModelSet) (atlases : AtlasSet)
    (id : ResourceId) (placement : Placement) (misses : Misses) :
    Except BakeError BakedModel × Misses :=
  let definitions := models.chain id
  inherit atlases id.render
    { Inherited.ofChain definitions with slots := SlotTable.resolveIn orders bake definitions }
    placement misses

theorem modelIn_eq (orders : Orders) (bake : Nat) (models : ModelSet) (atlases : AtlasSet)
    (id : ResourceId) (placement : Placement) (misses : Misses) :
    modelIn orders bake models atlases id placement misses =
      model models atlases id placement misses := by
  unfold modelIn
  simp only [SlotTable.resolveIn_eq]
  rfl

end Bake

end PackModels
