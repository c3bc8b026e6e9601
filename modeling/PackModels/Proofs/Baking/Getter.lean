import PackModels.Proofs.Baking.Bake

/-!
Contract: baking a model with sprites from anywhere.

A getter answers with a sprite for a material, and for a slot that is bound to
nothing; what it remembers between two requests is its own affair. `modelWith`
bakes a model through any getter. Atlases that record what is missing are one
getter, and with this one it is the bake of the library.

Owns: `SpriteGetter` and `modelWith`.

Does not own: what a bake gives.
-/

namespace PackModels

/-- Where sprites come from while a model is baked. -/
structure SpriteGetter (State : Type) where
  get : (model : String) → Material → State → Sprite × State
  /-- The sprite of a slot that is bound to nothing. -/
  getUnbound : (model slot : String) → State → Sprite × State

def AtlasSet.getter (atlases : AtlasSet) : SpriteGetter Misses :=
  ⟨atlases.lookUp, atlases.lookUpUnbound⟩

namespace Bake

/-- A model under a name whose sprites come from a getter. -/
structure Job (State : Type) where
  getter : SpriteGetter State
  name : String
  slots : SlotTable
  placement : Placement

variable {State : Type}

namespace Job

variable (job : Job State)

def slotSprite (slot : String) (state : State) : Sprite × State :=
  match job.slots.material? slot with
  | some material => job.getter.get job.name material state
  | none => job.getter.getUnbound job.name slot state

def fileFace (element : Element) (direction : Direction) (face : Face) (sprite : Sprite) :
    Option Direction × Quad :=
  (face.cullFace.map job.placement.turns.turnFace,
    Quad.ofFace element face sprite direction job.placement)

def faces (element : Element) :
    List (Direction × Face) → State → List (Option Direction × Quad) × State
  | [], state => ([], state)
  | (direction, face) :: rest, state =>
      let looked := job.slotSprite (faceSlot face) state
      let others := faces element rest looked.2
      (job.fileFace element direction face looked.1 :: others.1, others.2)

def elements :
    List Element → State → Except BakeError (List (Option Direction × Quad)) × State
  | [], state => (.ok [], state)
  | element :: rest, state =>
      match element.validate job.name with
      | .error error => (.error error, state)
      | .ok () =>
          let own := job.faces element element.faces.toList state
          match elements rest own.2 with
          | (.error error, after) => (.error error, after)
          | (.ok others, after) => (.ok (own.1 ++ others), after)

attribute [local irreducible] Element.validate in
theorem elements_cons (element : Element) (rest : List Element) (state : State) :
    job.elements (element :: rest) state =
      match element.validate job.name with
      | .error error => (.error error, state)
      | .ok () =>
          let own := job.faces element element.faces.toList state
          match job.elements rest own.2 with
          | (.error error, after) => (.error error, after)
          | (.ok others, after) => (.ok (own.1 ++ others), after) :=
  rfl

end Job

def chainWith (getter : SpriteGetter State) (name : String) (definitions : List ModelDef)
    (placement : Placement) (state : State) : Except BakeError BakedModel × State :=
  let inherited := Inherited.ofChain definitions
  let job : Job State := ⟨getter, name, inherited.slots, placement⟩
  let particle := job.slotSprite ModelDef.particleSlot state
  match job.elements inherited.elements particle.2 with
  | (.error error, after) => (.error error, after)
  | (.ok filed, after) =>
      (.ok
        { quads := BakedModel.filedUnder filed
          ambientOcclusion := inherited.ambientOcclusion
          gui3d := true
          usesBlockLight := inherited.guiLight.usesBlockLight
          particle := particle.1
          transforms := inherited.transforms },
        after)

/-- Bakes a model with the sprites of a getter. -/
def modelWith (getter : SpriteGetter State) (models : ModelSet) (id : ResourceId)
    (placement : Placement) (state : State) : Except BakeError BakedModel × State :=
  chainWith getter id.render (models.chain id) placement state

/-! ## Atlases as a getter -/

def Subject.job (subject : Subject) : Job Misses :=
  ⟨subject.atlases.getter, subject.name, subject.slots, subject.placement⟩

variable (subject : Subject)

theorem job_faces (element : Element) (entries : List (Direction × Face)) :
    subject.job.faces element entries = faces subject element entries := by
  induction entries with
  | nil => rfl
  | cons entry rest inductionHypothesis =>
      funext misses
      have looked : subject.job.slotSprite (faceSlot entry.2) misses =
          slotSprite subject (faceSlot entry.2) misses :=
        rfl
      rw [Job.faces, faces, looked, inductionHypothesis]
      rfl

theorem job_elements (all : List Element) :
    subject.job.elements all = elements subject all := by
  induction all with
  | nil => rfl
  | cons element rest inductionHypothesis =>
      funext misses
      have sameName : subject.job.name = subject.name := rfl
      rw [Job.elements_cons, elements_cons, job_faces, inductionHypothesis, sameName]
      cases element.validate subject.name with
      | error error => rfl
      | ok _ =>
          dsimp only
          rcases elements subject rest _ with ⟨error | others, after⟩ <;> rfl

/-- With the atlases as its getter, a bake is the bake of the library. -/
theorem chainWith_getter (atlases : AtlasSet) (name : String) (definitions : List ModelDef)
    (placement : Placement) :
    chainWith atlases.getter name definitions placement =
      chain atlases name definitions placement := by
  funext misses
  let inherited := Inherited.ofChain definitions
  let subject : Subject := ⟨atlases, name, inherited.slots, placement⟩
  have particle : Job.slotSprite ⟨atlases.getter, name, inherited.slots, placement⟩
      ModelDef.particleSlot misses = slotSprite subject ModelDef.particleSlot misses :=
    rfl
  have filed : Job.elements ⟨atlases.getter, name, inherited.slots, placement⟩
      inherited.elements = elements subject inherited.elements :=
    job_elements subject inherited.elements
  unfold chainWith chain
  dsimp only
  rw [particle, filed]
  rcases elements subject _ _ with ⟨error | all, after⟩ <;> rfl

end Bake

end PackModels
