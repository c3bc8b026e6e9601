import PackModels.Baking.Bake

/-!
Contract: what a bake comes to does not depend on what was missed before it.

The misses go through a bake from look-up to look-up and are only added to. No
look-up reads them, so a bake gives the same model, or the same fault, from
whatever misses it starts.
-/

namespace PackModels

theorem AtlasSet.lookUp_sprite (set : AtlasSet) (model : String) (material : Material)
    (misses misses' : Misses) :
    (set.lookUp model material misses).1 = (set.lookUp model material misses').1 := by
  unfold lookUp
  cases (set.sprite? material).filter (fun sprite => !sprite.isMissing) with
  | none => rfl
  | some sprite => rfl

namespace Bake

theorem slotSprite_sprite (subject : Subject) (slot : String) (misses misses' : Misses) :
    (slotSprite subject slot misses).1 = (slotSprite subject slot misses').1 := by
  unfold slotSprite
  cases subject.slots.material? slot with
  | none => rfl
  | some material => exact subject.atlases.lookUp_sprite subject.name material misses misses'

theorem faces_filed (subject : Subject) (element : Element)
    (entries : List (Direction × Face)) (misses misses' : Misses) :
    (faces subject element entries misses).1 = (faces subject element entries misses').1 := by
  induction entries generalizing misses misses' with
  | nil => rfl
  | cons entry rest inductionHypothesis =>
      have sprite := slotSprite_sprite subject (faceSlot entry.2) misses misses'
      simp only [faces]
      rw [sprite]
      congr 1
      exact inductionHypothesis _ _

theorem elements_nil (subject : Subject) (misses : Misses) :
    elements subject [] misses = (.ok [], misses) :=
  rfl

attribute [local irreducible] Element.validate in
theorem elements_cons (subject : Subject) (element : Element) (rest : List Element)
    (misses : Misses) :
    elements subject (element :: rest) misses =
      match element.validate subject.name with
      | .error error => (.error error, misses)
      | .ok () =>
          let own := faces subject element element.faces.toList misses
          match elements subject rest own.2 with
          | (.error error, after) => (.error error, after)
          | (.ok others, after) => (.ok (own.1 ++ others), after) :=
  rfl

theorem elements_filed (subject : Subject) (all : List Element) (misses misses' : Misses) :
    (elements subject all misses).1 = (elements subject all misses').1 := by
  induction all generalizing misses misses' with
  | nil => rfl
  | cons element rest inductionHypothesis =>
      rw [elements_cons, elements_cons]
      cases element.validate subject.name with
      | error error => rfl
      | ok _ =>
          have own := faces_filed subject element element.faces.toList misses misses'
          have others := inductionHypothesis
            (faces subject element element.faces.toList misses).2
            (faces subject element element.faces.toList misses').2
          dsimp only
          generalize elements subject rest _ = left at others ⊢
          generalize elements subject rest _ = right at others ⊢
          obtain ⟨result, after⟩ := left
          obtain ⟨result', after'⟩ := right
          obtain rfl : result = result' := others
          cases result with
          | error error => rfl
          | ok filed =>
              dsimp only
              rw [own]

theorem chain_result (atlases : AtlasSet) (name : String) (definitions : List ModelDef)
    (placement : Placement) (misses misses' : Misses) :
    (chain atlases name definitions placement misses).1 =
      (chain atlases name definitions placement misses').1 := by
  unfold chain
  let subject : Subject :=
    ⟨atlases, name, (Inherited.ofChain definitions).slots, placement⟩
  have particle := slotSprite_sprite subject ModelDef.particleSlot misses misses'
  have filed := elements_filed subject (Inherited.ofChain definitions).elements
    (slotSprite subject ModelDef.particleSlot misses).2
    (slotSprite subject ModelDef.particleSlot misses').2
  dsimp only
  rw [particle]
  generalize elements subject _ _ = left at filed ⊢
  generalize elements subject _ _ = right at filed ⊢
  obtain ⟨result, after⟩ := left
  obtain ⟨result', after'⟩ := right
  obtain rfl : result = result' := filed
  cases result with
  | error error => rfl
  | ok all => rfl

end Bake

end PackModels
