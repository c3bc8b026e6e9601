import PackModels.Proofs.Baking.Getter
import PackModels.Proofs.Geometry.Nearest
import PackModels.Proofs.Sorted

/-!
Contract: the quads of a bake.

The faces of the elements stand in one order: element by element, and within an
element in the order of directions. A bake fails with the fault of the first
element that has one. Otherwise the sprites are looked up in the order of the
faces, after that of the particles, and each face becomes one quad, filed under
the turned side of the neighbour that hides it, or under no side.

Owns: `Site`, a face in its place, and what a bake makes of all of them.

Does not own: the corners of a quad.
-/

namespace PackModels

/-! ## Faces in order -/

/-- A face on a side of an element. -/
structure Site where
  element : Element
  direction : Direction
  face : Face

/-- The faces of an element in the order of directions. -/
def Element.sites (element : Element) : List Site :=
  Direction.all.filterMap (fun direction =>
    element.faces[direction]?.map (fun face => ⟨element, direction, face⟩))

namespace Site

variable (placement : Placement) (site : Site)

/-- The slot that gives the sprite of a face. -/
def slot : String :=
  Bake.faceSlot site.face

/-- The side that a face is filed under. -/
def side : Option Direction :=
  site.face.cullFace.map placement.turns.turnFace

def quad (sprite : Sprite) : Quad :=
  Quad.ofFace site.element site.face sprite site.direction placement

/-- A quad shows a face with its sprite. -/
structure Shows (sprite : Sprite) (quad : Quad) : Prop where
  drawn : quad = site.quad placement sprite
  direction : quad.direction = placement.turns.turnFace site.direction
  tint : quad.tintIndex = site.face.tintIndex
  shade : quad.shade = site.element.shade
  sprite : quad.sprite = sprite

theorem shows_quad (sprite : Sprite) : site.Shows placement sprite (site.quad placement sprite) :=
  ⟨rfl, rfl, rfl, rfl, rfl⟩

variable {placement site}

/-- Under a turn, a quad looks in the direction nearest to the turned normal. -/
theorem Shows.isNearest {sprite : Sprite} {quad : Quad} (shows : site.Shows placement sprite quad)
    (turned : placement.turns ≠ .identity) :
    Direction.IsNearest (placement.turns.rotation.turn site.direction.normal) quad.direction :=
  (QuarterTurns.turnFace_eq_iff turned).mp shows.direction.symm

/-- Under a turn, a face is filed under the side nearest to the turned normal of
the neighbour that hides it. -/
theorem side_eq_some_iff (turned : placement.turns ≠ .identity) {side : Direction} :
    Site.side placement site = some side ↔ ∃ neighbour, site.face.cullFace = some neighbour ∧
      Direction.IsNearest (placement.turns.rotation.turn neighbour.normal) side := by
  rw [Site.side, Option.map_eq_some_iff]
  simp only [QuarterTurns.turnFace_eq_iff turned]

end Site

/-- The faces of an element come out in the order of directions. -/
theorem Element.toList_faces (element : Element) :
    element.faces.toList = Direction.all.filterMap (fun direction =>
      element.faces[direction]?.map (fun face => (direction, face))) := by
  have stored : Increasing Prod.fst element.faces.toList := element.faces.ordered_keys_toList
  have listed : Increasing Prod.fst (Direction.all.filterMap (fun direction =>
      element.faces[direction]?.map (fun face => (direction, face)))) := by
    have ordered : Direction.all.Pairwise (fun left right => compare left right = .lt) := by
      decide
    refine List.pairwise_filterMap.mpr (ordered.imp ?_)
    intro left right less entry isEntry entry' isEntry'
    obtain ⟨_, _, rfl⟩ := Option.map_eq_some_iff.mp isEntry
    obtain ⟨_, _, rfl⟩ := Option.map_eq_some_iff.mp isEntry'
    exact less
  refine stored.eq_of_perm listed ?_
  rw [List.perm_ext_iff_of_nodup stored.nodup.of_map listed.nodup.of_map]
  rintro ⟨direction, face⟩
  rw [Std.ExtTreeMap.mem_toList_iff_getElem?_eq_some, List.mem_filterMap]
  constructor
  · intro held
    exact ⟨direction, direction.mem_all, by rw [held]; rfl⟩
  · rintro ⟨_, _, found⟩
    obtain ⟨_, held, same⟩ := Option.map_eq_some_iff.mp found
    obtain ⟨rfl, rfl⟩ := Prod.mk.inj same
    exact held

theorem Element.sites_eq (element : Element) :
    element.faces.toList.map (fun entry => (⟨element, entry.1, entry.2⟩ : Site)) =
      element.sites := by
  rw [element.toList_faces, List.map_filterMap, sites]
  simp only [Option.map_map]
  rfl

namespace BakedModel

theorem filedUnder_cons (filedSide : Option Direction) (quad : Quad)
    (rest : List (Option Direction × Quad)) (side : Option Direction) :
    filedUnder ((filedSide, quad) :: rest) side =
      if filedSide = side then quad :: filedUnder rest side else filedUnder rest side := by
  unfold filedUnder
  rw [List.filter_cons]
  simp only [beq_iff_eq]
  split
  · rfl
  · rfl

/-- Every quad is filed under exactly one of the sides. -/
theorem length_filedUnder (filed : List (Option Direction × Quad)) :
    (sides.flatMap (filedUnder filed)).length = filed.length := by
  induction filed with
  | nil => rfl
  | cons entry rest inductionHypothesis =>
      obtain ⟨side, quad⟩ := entry
      simp only [sides, Direction.all, List.map_cons, List.map_nil, List.flatMap_cons,
        List.flatMap_nil, List.length_append, List.length_nil, filedUnder_cons, List.length_cons]
        at inductionHypothesis ⊢
      rcases side with _ | direction
      · simp only [reduceCtorEq, if_true, if_false, List.length_cons]
        omega
      · cases direction <;>
          simp only [reduceCtorEq, Option.some.injEq, if_true, if_false, List.length_cons] <;>
          omega

end BakedModel

namespace Bake.Job

variable {State : Type} (job : Job State)

/-- Looks up the sprites of some slots, one after another. -/
def lookUps : List String → State → List Sprite × State
  | [], state => ([], state)
  | slot :: rest, state =>
      let looked := job.slotSprite slot state
      let others := lookUps rest looked.2
      (looked.1 :: others.1, others.2)

/-- A face as it is filed. -/
def file (site : Site) (sprite : Sprite) : Option Direction × Quad :=
  (site.side job.placement, site.quad job.placement sprite)

theorem length_lookUps (slots : List String) (state : State) :
    (job.lookUps slots state).1.length = slots.length := by
  induction slots generalizing state with
  | nil => rfl
  | cons slot rest inductionHypothesis =>
      rw [lookUps, List.length_cons, List.length_cons, inductionHypothesis]

theorem lookUps_append (slots others : List String) (state : State) :
    job.lookUps (slots ++ others) state =
      ((job.lookUps slots state).1 ++ (job.lookUps others (job.lookUps slots state).2).1,
        (job.lookUps others (job.lookUps slots state).2).2) := by
  induction slots generalizing state with
  | nil => rfl
  | cons slot rest inductionHypothesis =>
      rw [List.cons_append, lookUps, inductionHypothesis]
      rfl

theorem faces_eq (element : Element) (entries : List (Direction × Face)) (state : State) :
    let sites := entries.map (fun entry => (⟨element, entry.1, entry.2⟩ : Site))
    let looked := job.lookUps (sites.map Site.slot) state
    job.faces element entries state = (sites.zipWith job.file looked.1, looked.2) := by
  induction entries generalizing state with
  | nil => rfl
  | cons entry rest inductionHypothesis =>
      obtain ⟨direction, face⟩ := entry
      dsimp only
      rw [faces, inductionHypothesis]
      rfl

theorem elements_of_valid {all : List Element} (state : State)
    (valid : ∀ element ∈ all, element.validate job.name = .ok ()) :
    let sites := all.flatMap Element.sites
    let looked := job.lookUps (sites.map Site.slot) state
    job.elements all state = (.ok (sites.zipWith job.file looked.1), looked.2) := by
  induction all generalizing state with
  | nil => rfl
  | cons element rest inductionHypothesis =>
      rw [List.forall_mem_cons] at valid
      dsimp only
      have own := job.faces_eq element element.faces.toList state
      rw [element.sites_eq] at own
      rw [elements_cons, valid.1]
      dsimp only at own ⊢
      rw [own, inductionHypothesis _ valid.2, List.flatMap_cons, List.map_append, lookUps_append,
        List.zipWith_append]
      rw [length_lookUps, List.length_map]

theorem elements_of_invalid {before after : List Element} {element : Element} (state : State)
    {error : BakeError} (valid : ∀ earlier ∈ before, earlier.validate job.name = .ok ())
    (invalid : element.validate job.name = .error error) :
    (job.elements (before ++ element :: after) state).1 = .error error := by
  induction before generalizing state with
  | nil => rw [List.nil_append, elements_cons, invalid]
  | cons first rest inductionHypothesis =>
      rw [List.forall_mem_cons] at valid
      rw [List.cons_append, elements_cons, valid.1]
      dsimp only
      have failed := inductionHypothesis
        (job.faces first first.faces.toList state).2 valid.2
      generalize job.elements (rest ++ element :: after) _ = outcome at *
      obtain ⟨result, last⟩ := outcome
      obtain rfl := failed
      rfl

/-- Either all elements are in order, or there is a first one that is not. -/
theorem valid_or_first (name : String) (all : List Element) :
    (∀ element ∈ all, element.validate name = .ok ()) ∨
      ∃ before element after error, all = before ++ element :: after ∧
        (∀ earlier ∈ before, earlier.validate name = .ok ()) ∧
        element.validate name = .error error := by
  induction all with
  | nil => exact .inl (by simp)
  | cons element rest inductionHypothesis =>
      cases validated : element.validate name with
      | error error => exact .inr ⟨[], element, rest, error, rfl, by simp, validated⟩
      | ok _ =>
          rcases inductionHypothesis with valid | ⟨before, found, after, error, rfl, valid, invalid⟩
          · exact .inl (List.forall_mem_cons.mpr ⟨validated, valid⟩)
          · exact .inr ⟨element :: before, found, after, error, rfl,
              List.forall_mem_cons.mpr ⟨validated, valid⟩, invalid⟩

/-- The quads under a side are those of the faces that are filed there. -/
theorem filedUnder_file (sites : List Site) (sprites : List Sprite) (side : Option Direction) :
    BakedModel.filedUnder (sites.zipWith job.file sprites) side =
      ((sites.zip (sites.zipWith (Site.quad job.placement) sprites)).filter
        (fun entry => entry.1.side job.placement == side)).map Prod.snd := by
  have filed : sites.zipWith job.file sprites =
      (sites.zip (sites.zipWith (Site.quad job.placement) sprites)).map
        (fun entry => (entry.1.side job.placement, entry.2)) := by
    induction sites generalizing sprites with
    | nil => rfl
    | cons site rest inductionHypothesis =>
        cases sprites with
        | nil => rfl
        | cons sprite others =>
            rw [List.zipWith_cons_cons, inductionHypothesis]
            rfl
  rw [filed, BakedModel.filedUnder, List.filter_map, List.map_map]
  rfl

theorem forall₂_shows {sites : List Site} {sprites : List Sprite} :
    List.Forall₂ (fun (looked : Site × Sprite) quad =>
        looked.1.Shows job.placement looked.2 quad)
      (sites.zip sprites) (sites.zipWith (Site.quad job.placement) sprites) := by
  induction sites generalizing sprites with
  | nil => exact .nil
  | cons site rest inductionHypothesis =>
      cases sprites with
      | nil => exact .nil
      | cons sprite others =>
          exact .cons (site.shows_quad job.placement sprite) inductionHypothesis

end Bake.Job

namespace Bake

/-! ## What a bake gives -/

/-- What becomes of some faces with their sprites. -/
structure Drawn (placement : Placement) (sites : List Site) (sprites : List Sprite)
    (quads : List Quad) (baked : BakedModel) : Prop where
  looked : sprites.length = sites.length
  /-- Each face becomes one quad, with its own sprite. -/
  shown : List.Forall₂ (fun (looked : Site × Sprite) quad => looked.1.Shows placement looked.2 quad)
    (sites.zip sprites) quads
  /-- Under a side are the quads of the faces that are filed there, in order. -/
  filed : ∀ side, baked.quads side =
    ((sites.zip quads).filter (fun entry => entry.1.side placement == side)).map Prod.snd
  counted : baked.quadCount = sites.length

section Outcome

variable {State : Type} (getter : SpriteGetter State) (name : String)
  (definitions : List ModelDef) (placement : Placement) (state : State)

/-- A model is baked from its particles and its elements. -/
theorem chainWith_eq :
    let inherited := Inherited.ofChain definitions
    let job : Job State := ⟨getter, name, inherited.slots, placement⟩
    let particle := job.slotSprite ModelDef.particleSlot state
    let filed := job.elements inherited.elements particle.2
    chainWith getter name definitions placement state =
      (filed.1.map (fun filed =>
        { quads := BakedModel.filedUnder filed
          ambientOcclusion := inherited.ambientOcclusion
          gui3d := true
          usesBlockLight := inherited.guiLight.usesBlockLight
          particle := particle.1
          transforms := inherited.transforms }), filed.2) := by
  unfold chainWith
  dsimp only
  rcases Job.elements _ _ _ with ⟨error | filed, after⟩ <;> rfl

theorem chainWith_of_invalid {before after : List Element} {element : Element}
    {error : BakeError}
    (split : (Inherited.ofChain definitions).elements = before ++ element :: after)
    (valid : ∀ earlier ∈ before, earlier.validate name = .ok ())
    (invalid : element.validate name = .error error) :
    (chainWith getter name definitions placement state).1 = .error error := by
  let job : Job State := ⟨getter, name, (Inherited.ofChain definitions).slots, placement⟩
  have failed : (job.elements (before ++ element :: after)
      (job.slotSprite ModelDef.particleSlot state).2).1 = .error error :=
    job.elements_of_invalid _ valid invalid
  rw [chainWith_eq, split]
  dsimp only
  rw [failed]
  rfl

theorem chainWith_of_valid
    (valid : ∀ element ∈ (Inherited.ofChain definitions).elements,
      element.validate name = .ok ()) :
    let inherited := Inherited.ofChain definitions
    let job : Job State := ⟨getter, name, inherited.slots, placement⟩
    let sites := inherited.elements.flatMap Element.sites
    ∃ baked after sprites quads,
      chainWith getter name definitions placement state = (.ok baked, after) ∧
      job.lookUps (ModelDef.particleSlot :: sites.map Site.slot) state =
        (baked.particle :: sprites, after) ∧
      Drawn placement sites sprites quads baked := by
  intro inherited job sites
  have filed := job.elements_of_valid (job.slotSprite ModelDef.particleSlot state).2 valid
  rw [chainWith_eq]
  dsimp only at filed ⊢
  rw [filed]
  refine ⟨_, _, _, sites.zipWith (Site.quad placement) _, rfl, rfl, ?looked, job.forall₂_shows,
    job.filedUnder_file sites _, ?counted⟩
  case looked => rw [Job.length_lookUps, List.length_map]
  case counted =>
    rw [BakedModel.quadCount, BakedModel.length_filedUnder, List.length_zipWith,
      Job.length_lookUps, List.length_map, Nat.min_self]

/-- A bake fails exactly if an element has a fault. -/
theorem chainWith_fails_iff :
    (∃ error, (chainWith getter name definitions placement state).1 = .error error) ↔
      ∃ element ∈ (Inherited.ofChain definitions).elements, element.validate name ≠ .ok () := by
  constructor
  · rintro ⟨error, failed⟩
    rcases Job.valid_or_first name (Inherited.ofChain definitions).elements with
      valid | ⟨before, element, after, found, split, _, invalid⟩
    · obtain ⟨baked, after, _, _, succeeded, _⟩ :=
        chainWith_of_valid getter name definitions placement state valid
      rw [succeeded] at failed
      cases failed
    · exact ⟨element, by simp [split], by simp [invalid]⟩
  · rintro ⟨element, member, invalid⟩
    rcases Job.valid_or_first name (Inherited.ofChain definitions).elements with
      valid | ⟨before, found, after, error, split, early, isFound⟩
    · exact absurd (valid element member) invalid
    · exact ⟨error, chainWith_of_invalid getter name definitions placement state split early isFound⟩

/-- What a bake that succeeds has drawn. -/
theorem drawn_of_chainWith {baked : BakedModel}
    (succeeded : (chainWith getter name definitions placement state).1 = .ok baked) :
    let job : Job State := ⟨getter, name, (Inherited.ofChain definitions).slots, placement⟩
    let sites := (Inherited.ofChain definitions).elements.flatMap Element.sites
    ∃ sprites quads,
      job.lookUps (ModelDef.particleSlot :: sites.map Site.slot) state =
        (baked.particle :: sprites, (chainWith getter name definitions placement state).2) ∧
      Drawn placement sites sprites quads baked := by
  intro job sites
  have valid : ∀ element ∈ (Inherited.ofChain definitions).elements,
      element.validate name = .ok () := by
    intro element member
    by_contra invalid
    obtain ⟨error, failed⟩ :=
      (chainWith_fails_iff getter name definitions placement state).mpr ⟨element, member, invalid⟩
    rw [succeeded] at failed
    cases failed
  obtain ⟨made, after, sprites, quads, isOutcome, looked, drawn⟩ :=
    chainWith_of_valid getter name definitions placement state valid
  rw [isOutcome] at succeeded ⊢
  obtain rfl := Except.ok.inj succeeded
  exact ⟨sprites, quads, looked, drawn⟩

end Outcome

/-- Through any getter, a bake fails exactly with the fault of the first element
that has one. Otherwise each face becomes one quad, filed where it belongs. -/
theorem modelWith_exact {State : Type} (getter : SpriteGetter State) (models : ModelSet)
    (id : ResourceId) (placement : Placement) (state : State) :
    let inherited := Inherited.ofChain (models.chain id)
    let job : Job State := ⟨getter, id.render, inherited.slots, placement⟩
    let sites := inherited.elements.flatMap Element.sites
    let outcome := modelWith getter models id placement state
    ((∃ error, outcome.1 = .error error) ↔
      ∃ element ∈ inherited.elements, element.validate id.render ≠ .ok ()) ∧
    (∀ error, outcome.1 = .error error ↔
      ∃ before element after, inherited.elements = before ++ element :: after ∧
        (∀ earlier ∈ before, earlier.validate id.render = .ok ()) ∧
        element.validate id.render = .error error) ∧
    (∀ baked, outcome.1 = .ok baked → ∃ sprites quads,
      job.lookUps (ModelDef.particleSlot :: sites.map Site.slot) state =
        (baked.particle :: sprites, outcome.2) ∧
      Drawn placement sites sprites quads baked) ∧
    ∀ atlases : AtlasSet,
      modelWith atlases.getter models id placement = model models atlases id placement := by
  intro inherited job sites outcome
  have fault : ∀ error, outcome.1 = .error error ↔
      ∃ before element after, inherited.elements = before ++ element :: after ∧
        (∀ earlier ∈ before, earlier.validate id.render = .ok ()) ∧
        element.validate id.render = .error error := by
    intro error
    constructor
    · intro failed
      rcases Job.valid_or_first id.render inherited.elements with
        valid | ⟨before, element, after, found, split, early, invalid⟩
      · obtain ⟨baked, after, _, _, isOutcome, _⟩ :=
          chainWith_of_valid getter id.render (models.chain id) placement state valid
        have succeeded : outcome.1 = .ok baked := congrArg Prod.fst isOutcome
        rw [succeeded] at failed
        cases failed
      · have isFound :=
          chainWith_of_invalid getter id.render (models.chain id) placement state split early invalid
        obtain rfl : found = error := Except.error.inj (isFound.symm.trans failed)
        exact ⟨before, element, after, split, early, invalid⟩
    · rintro ⟨before, element, after, split, early, invalid⟩
      exact chainWith_of_invalid getter id.render (models.chain id) placement state split early
        invalid
  refine ⟨chainWith_fails_iff getter id.render (models.chain id) placement state, fault,
    fun baked succeeded =>
      drawn_of_chainWith getter id.render (models.chain id) placement state succeeded,
    fun atlases => ?_⟩
  exact chainWith_getter atlases id.render (models.chain id) placement

end Bake

end PackModels
