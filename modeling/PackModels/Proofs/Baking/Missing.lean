import PackModels.Proofs.Baking.Batch
import PackModels.Proofs.Baking.Calls
import PackModels.Proofs.Discovery.Ancestry
import PackModels.Proofs.Geometry.Nearest

/-!
Contract: there is one missing model.

It is baked in two ways: through a chain of definitions like any other model,
and by hand where nothing could be baked. Both come to the same, and no pack
can change that: the id of the missing model always stands for the missing
model and not for what a pack defines under that id. The same goes for every
id that is not referenced, that the pack does not hold, or that lies on a loop.
None of them misses a texture.

Owns: the bake of a chain of the missing model alone.

Does not own: which ids stand for the missing model (`Discovery.Unusable`).
-/

namespace PackModels

/-! ## The bake of the missing model -/

/-- Whatever a set of atlases holds, it shows its missing sprite for the missing
texture, and that is no miss. -/
theorem AtlasSet.lookUp_missing (set : AtlasSet) (name : String) (misses : Misses) :
    set.lookUp name Material.missing misses = (set.missing, misses) := by
  have hidden : (set.sprite? Material.missing).filter (fun sprite => !sprite.isMissing) = none := by
    rw [Option.filter_eq_none_iff]
    intro sprite found
    obtain ⟨atlas, _, isSprite⟩ := Option.bind_eq_some_iff.mp found
    have named : atlas.missing.isMissing = true := beq_self_eq_true _
    obtain rfl : atlas.missing = sprite := Option.some.inj isSprite
    simp [named]
  unfold lookUp
  rw [hidden]
  rfl

/-- Where no transform is declared, there is none. -/
theorem Transforms.resolve_undeclared {chain : List DisplayTable}
    (undeclared : ∀ context, declared? chain context = Option.none) : resolve chain = none := by
  funext context
  unfold resolve
  rw [undeclared]
  cases context.rightHand? with
  | none => rfl
  | some right =>
      dsimp only
      rw [undeclared]
      rfl

namespace ModelDef

/-- The only element of the missing model. -/
def missingCube : Element :=
  ⟨.splat 0, .splat 16, none, true, missingFaces⟩

theorem validate_missingCube (name : String) : missingCube.validate name = .ok () := by
  have inside : (Element.inBounds missingCube.fromCorner &&
      Element.inBounds missingCube.toCorner) = true := by decide +kernel
  have fine : missingCube.badFace? = none := by
    rw [← Option.isNone_iff_eq_none]
    decide +kernel
  unfold Element.validate
  rw [inside, fine]
  rfl

theorem faceSlot_missingFaces : ∀ entry ∈ missingFaces.toList, Bake.faceSlot entry.2 = "missing" := by
  decide +kernel

theorem material?_missing :
    (SlotTable.resolve [missing]).material? particleSlot = some Material.missing ∧
      (SlotTable.resolve [missing]).material? "missing" = some Material.missing := by
  decide +kernel

end ModelDef

namespace Bake

variable {subject : Subject} {misses : Misses}

/-- A slot that leads to the missing texture. -/
theorem slotSprite_missing {slot : String}
    (leads : subject.slots.material? slot = some Material.missing) :
    slotSprite subject slot misses = (subject.atlases.missing, misses) := by
  unfold slotSprite
  rw [leads]
  exact subject.atlases.lookUp_missing subject.name misses

theorem faces_missing {element : Element} {entries : List (Direction × Face)}
    (lead : ∀ entry ∈ entries,
      subject.slots.material? (faceSlot entry.2) = some Material.missing) :
    faces subject element entries misses =
      (entries.map (fun entry => fileFace subject element entry.1 entry.2 subject.atlases.missing),
        misses) := by
  induction entries with
  | nil => rfl
  | cons entry rest inductionHypothesis =>
      rw [List.forall_mem_cons] at lead
      rw [faces, slotSprite_missing lead.1]
      dsimp only
      rw [inductionHypothesis lead.2]
      rfl

/-- A model that is not turned hides its faces where it says. -/
theorem fileFace_identity (unturned : subject.placement = Placement.identity) (element : Element)
    (direction : Direction) (face : Face) (sprite : Sprite) :
    fileFace subject element direction face sprite =
      (face.cullFace, Quad.ofFace element face sprite direction Placement.identity) := by
  unfold fileFace
  rw [unturned]
  cases face.cullFace with
  | none => rfl
  | some side =>
      rw [Option.map_some]
      exact congrArg (fun side => (some side, _)) (QuarterTurns.turnFace_identity side)

theorem missingFaces_eq (sprite : Sprite) :
    missingFaces sprite = ModelDef.missingCube.faces.toList.map
      (fun entry => (entry.2.cullFace,
        Quad.ofFace ModelDef.missingCube entry.2 sprite entry.1 Placement.identity)) :=
  List.flatMap_singleton _ _

/-- The only element of the missing model comes to the faces made by hand. -/
theorem elements_missing (placed : subject.placement = Placement.identity)
    (slots : subject.slots = SlotTable.resolve [ModelDef.missing]) :
    elements subject [ModelDef.missingCube] misses =
      (.ok (missingFaces subject.atlases.missing), misses) := by
  have lead : ∀ entry ∈ ModelDef.missingCube.faces.toList,
      subject.slots.material? (faceSlot entry.2) = some Material.missing := by
    intro entry member
    rw [ModelDef.faceSlot_missingFaces entry member, slots]
    exact ModelDef.material?_missing.2
  rw [elements_cons, ModelDef.validate_missingCube, faces_missing lead, missingFaces_eq]
  dsimp only
  rw [elements_nil]
  simp only [fileFace_identity placed, List.append_nil]

/-- The missing model is baked without a fault and without a miss, and comes to
the one that is baked by hand. -/
theorem chain_missing (atlases : AtlasSet) (name : String) (misses : Misses) :
    chain atlases name [ModelDef.missing] Placement.identity misses =
      (.ok (missingModel atlases.missing), misses) := by
  let subject : Subject :=
    ⟨atlases, name, SlotTable.resolve [ModelDef.missing], Placement.identity⟩
  have particle : slotSprite subject ModelDef.particleSlot misses = (atlases.missing, misses) :=
    slotSprite_missing ModelDef.material?_missing.1
  have cube : elements subject [ModelDef.missingCube] misses =
      (.ok (missingFaces atlases.missing), misses) :=
    elements_missing rfl rfl
  have transforms : Transforms.resolve [ModelDef.missing.display] = Transforms.none :=
    Transforms.resolve_undeclared (fun _ => rfl)
  have inherited : Inherited.ofChain [ModelDef.missing] =
      ⟨SlotTable.resolve [ModelDef.missing], true, .side, Transforms.none,
        [ModelDef.missingCube]⟩ := by
    rw [← transforms]
    rfl
  unfold chain
  rw [inherited]
  dsimp only
  rw [particle]
  dsimp only
  rw [cube]
  rfl

end Bake

/-! ## Ids that stand for the missing model -/

section StandingFor

variable {bakery : Bakery} {tag : Nat} {id : ResourceId}

/-- An id that stands for the missing model is baked as the missing model. -/
theorem Bake.model_of_missing
    (stands : bakery.models.get id = ⟨tag, ModelDef.missing⟩) (misses : Misses) :
    Bake.model bakery.models bakery.atlases id Placement.identity misses =
      (.ok (missingModel bakery.atlases.missing), misses) := by
  have parentless : (bakery.models.get id).value.parent = none := by
    rw [stands]
    rfl
  have alone : bakery.models.chain id = [ModelDef.missing] := by
    rw [ModelSet.chain, ModelSet.chainOf_of_parentless parentless, stands]
    rfl
  rw [model, alone, chain_missing]

/-- The same through a cache, whatever has been baked before. -/
theorem Bakery.bake_of_missing
    (stands : bakery.models.get id = ⟨tag, ModelDef.missing⟩) {state : BakeState}
    (faithful : bakery.Faithful state) :
    (bakery.bake id Placement.identity state).1.map Shared.value =
        .ok (Bake.missingModel bakery.atlases.missing) ∧
      (bakery.bake id Placement.identity state).2.missed = state.missed := by
  let key : BakeKey := ⟨id, Placement.identity⟩
  have baked := Bake.model_of_missing stands
  refine ⟨(bake_value faithful key).trans (congrArg Prod.fst (baked ∅)), ?_⟩
  have called : Called bakery key state (bakery.bake id Placement.identity state) :=
    bake_called bakery key state
  generalize bakery.bake id Placement.identity state = outcome at called ⊢
  cases called with
  | found known => rfl
  | failed unknown failed => exact congrArg Prod.snd (failed.symm.trans (baked state.missed))
  | made unknown made => exact congrArg Prod.snd (made.symm.trans (baked state.missed))

end StandingFor

/-- There is one missing model, and no pack overrides it. Whatever a pack holds,
also under the id of the missing model, the missing model of a whole batch is
the one that is baked by hand, and so is the bake of every id that is not
referenced or that has no usable definition. Such a bake succeeds and misses no
texture, with a cache as without one. -/
theorem Batch.missingModel_exact (input : Table ResourceId (Shared ModelDef)) (tag : Nat)
    (roots : List (List ResourceId)) (atlases : AtlasSet) :
    let found := ((Discovery.start input ⟨tag, ModelDef.missing⟩).visitAll roots.flatten).1
    let bakery : Bakery := ⟨ModelSet.ofDiscovery found, atlases⟩
    let byHand := Bake.missingModel atlases.missing
    (∀ bindings items, (bakeAll bakery bindings items).1.missingModel.value = byHand) ∧
      ∀ id, id ∉ found.referenced ∨ Discovery.Unusable input id →
        (∀ misses, Bake.model bakery.models atlases id Placement.identity misses =
          (.ok byHand, misses)) ∧
        ∀ state, bakery.Faithful state →
          (bakery.bake id Placement.identity state).1.map Shared.value = .ok byHand ∧
            (bakery.bake id Placement.identity state).2.missed = state.missed := by
  intro found bakery byHand
  have parentless : (⟨tag, ModelDef.missing⟩ : Shared ModelDef).value.parent = none := rfl
  obtain ⟨settled, sameInput, sameMissing⟩ :=
    (Discovery.settled_start input parentless).visitAll roots.flatten
  change Discovery.Settled _ found at settled
  change found.input = input at sameInput
  change found.missing = ⟨tag, ModelDef.missing⟩ at sameMissing
  have stands : ∀ id, id ∉ found.referenced ∨ Discovery.Unusable input id →
      bakery.models.get id = ⟨tag, ModelDef.missing⟩ := by
    intro id excluded
    rw [← sameMissing]
    by_cases referenced : id ∈ found.referenced
    · have unusable := excluded.resolve_left (not_not_intro referenced)
      rw [← sameInput] at unusable
      exact settled.get_of_unusable referenced unusable
    · exact Discovery.get_of_unreferenced referenced
  refine ⟨fun bindings items => ?_, fun id excluded => ?_⟩
  · obtain ⟨last, complete⟩ := bakeAll_complete bakery bindings items
    have afresh : bakery.afresh missingKey = some ⟨0, byHand⟩ :=
      Bakery.afresh_of_ok
        (Bake.model_of_missing (stands ModelDef.missingId (.inr (.inl rfl))) ∅)
    rw [complete.missing, missingAfresh, afresh]
  · exact ⟨Bake.model_of_missing (stands id excluded),
      fun _ faithful => Bakery.bake_of_missing (stands id excluded) faithful⟩

end PackModels
