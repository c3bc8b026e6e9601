import PackModels.Proofs.Baking.Quads
import PackModels.Proofs.Model.References

/-!
Contract: what a hash sign and a name mean on a face, and what they mean as the
value of a slot.

As the value of a slot they mean the slot of that name, and a slot that is bound
to them has the material of that one. A face drops the hash sign before it asks
for its slot, and the question drops another one. So the two mean the same slot
for every name that does not begin with a hash sign itself. For a name that does
they mean different slots, and the face may be reported where the slot has a
material.

Owns: the material behind a face, and the sprites of the faces of a bake that
succeeds.

Does not own: what the slots of a chain are resolved to.
-/

namespace PackModels

/-- A slot that refers to another one has the material of that one. -/
theorem SlotTable.getElem?_materials_of_reference {chain : List ModelDef} {slot next : String}
    (refers : boundTo? chain slot = some (.reference next)) :
    (resolve chain).materials[slot]? = (resolve chain).materials[next]? := by
  apply Option.ext
  intro material
  rw [getElem?_materials_eq_some_iff, getElem?_materials_eq_some_iff]
  constructor
  · rintro ⟨passed, last, way, held⟩
    cases way with
    | here =>
        rw [refers] at held
        cases held
    | onward _ next' passed _ refers' rest =>
        obtain rfl : next = next' :=
          SlotValue.reference.inj (Option.some.inj (refers.symm.trans refers'))
        exact ⟨passed, last, rest, held⟩
  · rintro ⟨passed, last, way, held⟩
    exact ⟨slot :: passed, last, .onward slot next passed last refers way, held⟩

theorem SlotValue.parse_hash (slot : String) : parse ("#" ++ slot) = .reference slot := by
  have isMark : ("#" : String).toList = ['#'] := rfl
  rw [parse, (Text.dropLeading?_mark isMark).mpr rfl]

namespace Bake

theorem faceSlot_of_hash {face : Face} {slot : String} (written : face.texture = "#" ++ slot) :
    faceSlot face = slot := by
  have isMark : ("#" : String).toList = ['#'] := rfl
  rw [faceSlot, (Text.dropLeading?_mark isMark).mpr written, Option.getD_some]

/-- The sprites of some slots do not depend on what was missed before. -/
theorem lookUps_sprites (subject : Subject) (slots : List String) (misses : Misses) :
    (subject.job.lookUps slots misses).1 =
      slots.map (fun slot => (slotSprite subject slot ∅).1) := by
  induction slots generalizing misses with
  | nil => rfl
  | cons slot rest inductionHypothesis =>
      rw [Job.lookUps, inductionHypothesis, List.map_cons]
      exact congrArg (· :: _) (slotSprite_sprite subject slot misses ∅)

/-- The material that a hash sign and a name mean, for every name. A slot that is
bound to them has the material of the slot of that name. A face with them as its
texture asks for that slot with one hash sign less, if there is one; it gets the
sprite of the material, and is reported with its texture if there is none. Names
without a hash sign in front mean the same in both places. These sprites are
the ones that a bake that succeeds shows. -/
theorem faceSlot_exact (atlases : AtlasSet) (name : String) (definitions : List ModelDef)
    (placement : Placement) (slot : String) :
    let slots := SlotTable.resolve definitions
    let subject : Subject := ⟨atlases, name, slots, placement⟩
    let sites := (Inherited.ofChain definitions).elements.flatMap Element.sites
    let lesser := (Text.dropLeading? '#' slot).getD slot
    (∀ bound, SlotTable.boundTo? definitions bound = some (.parse ("#" ++ slot)) →
      slots.materials[bound]? = slots.materials[slot]?) ∧
    (∀ face misses, face.texture = "#" ++ slot →
      slotSprite subject (faceSlot face) misses =
        match slots.materials[lesser]? with
        | some material => atlases.lookUp name material misses
        | none => (atlases.missing, misses.record name face.texture)) ∧
    ((∀ rest, slot ≠ "#" ++ rest) → lesser = slot) ∧
    ∀ misses baked, (chain atlases name definitions placement misses).1 = .ok baked →
      ∃ quads, Drawn placement sites
        (sites.map (fun site => (slotSprite subject (faceSlot site.face) ∅).1)) quads baked := by
  intro slots subject sites lesser
  refine ⟨?_, ?_, ?_, ?_⟩
  · intro bound isBound
    rw [SlotValue.parse_hash] at isBound
    exact SlotTable.getElem?_materials_of_reference isBound
  · intro face misses written
    rw [faceSlot_of_hash written, written]
    rfl
  · intro plain
    have isMark : ("#" : String).toList = ['#'] := rfl
    show (Text.dropLeading? '#' slot).getD slot = slot
    rw [(Text.dropLeading?_eq_none_iff isMark).mpr plain, Option.getD_none]
  · intro misses baked succeeded
    rw [← chainWith_getter] at succeeded
    obtain ⟨sprites, quads, looked, drawn⟩ :=
      drawn_of_chainWith atlases.getter name definitions placement misses succeeded
    have shown := (congrArg Prod.fst looked).symm.trans (lookUps_sprites subject _ misses)
    rw [List.map_cons] at shown
    obtain ⟨_, rfl⟩ := List.cons.inj shown
    rw [List.map_map] at drawn
    exact ⟨quads, drawn⟩

/-- A model with a slot whose name begins with a hash sign. -/
def hashNamed : ModelDef :=
  { ModelDef.blank with
    textures := Table.ofPairs
      [("#side", .parse "block/one"), ("particle", .parse "##side")] }

/-- The particles, bound to a reference to this slot, have its material. A face
with the same text is not led to it. -/
theorem faceSlot_ne_bound :
    ¬ ∀ (definitions : List ModelDef) (slot bound : String) (face : Face),
      face.texture = "#" ++ slot →
      SlotTable.boundTo? definitions bound = some (.parse ("#" ++ slot)) →
        (SlotTable.resolve definitions).material? (faceSlot face) =
          (SlotTable.resolve definitions).materials[bound]? := by
  intro same
  have agree := same [hashNamed] "#side" "particle" ⟨"##side", none, none, 0, -1⟩ (by decide)
    (by decide)
  revert agree
  decide

end Bake

end PackModels
