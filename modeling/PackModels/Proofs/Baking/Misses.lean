import PackModels.Baking.Cache
import PackModels.Proofs.Baking.Bake

/-!
Contract: what a bake adds to the misses.

`Missed` says what one slot of a model misses, and `Lacks` what all slots miss
that a bake looks up: the particle slot and the faces in front of the first
element with a fault. A bake adds these texts under the name of its model and
nothing else, from whatever misses it starts and whether it succeeds or not.
Misses hold no empty entries, so two of them that report the same texts are
equal.
-/

namespace PackModels

namespace Misses

/-- A text is missing from the model of a name. -/
def Reports (misses : Misses) (model text : String) : Prop :=
  ∃ texts, misses[model]? = some texts ∧ text ∈ texts

/-- No model is listed without a missing text. -/
def Substantial (misses : Misses) : Prop :=
  ∀ (model : String) (texts : Roster String), misses[model]? = some texts →
    ∃ text, text ∈ texts

theorem not_reports_empty (model text : String) : ¬ Reports ∅ model text := by
  rintro ⟨texts, found, _⟩
  simp at found

theorem substantial_empty : Substantial ∅ := by
  intro model texts found
  simp at found

theorem getElem?_record_self (misses : Misses) (model text : String) :
    (misses.record model text)[model]? = some ((misses[model]?.getD ∅).insert text) :=
  Std.ExtTreeMap.getElem?_insert_self

theorem getElem?_record_of_ne (misses : Misses) {model other : String} (text : String)
    (apart : other ≠ model) : (misses.record model text)[other]? = misses[other]? :=
  Table.getElem?_insert_of_ne apart

theorem reports_record (misses : Misses) (model text other found : String) :
    (misses.record model text).Reports other found ↔
      misses.Reports other found ∨ (other = model ∧ found = text) := by
  unfold Reports
  by_cases same : other = model
  · subst same
    have inserted : found ∈ (misses[other]?.getD ∅).insert text ↔
        found ∈ misses[other]?.getD ∅ ∨ found = text := by
      rw [Std.ExtTreeSet.mem_insert, Std.compare_eq_iff_eq, or_comm, eq_comm]
    rw [getElem?_record_self]
    cases known : misses[other]? with
    | none => simpa [known] using inserted
    | some texts => simpa [known] using inserted
  · rw [getElem?_record_of_ne misses text same]
    simp [same]

theorem Substantial.record {misses : Misses} (substantial : misses.Substantial)
    (model text : String) : (misses.record model text).Substantial := by
  intro other texts found
  by_cases same : other = model
  · rw [same, getElem?_record_self] at found
    rw [← Option.some.inj found]
    exact ⟨text, Std.ExtTreeSet.mem_insert_self⟩
  · rw [getElem?_record_of_ne misses text same] at found
    exact substantial other texts found

/-- Misses are determined by what they report. -/
theorem Substantial.ext {misses misses' : Misses} (substantial : misses.Substantial)
    (substantial' : misses'.Substantial)
    (same : ∀ model text, misses.Reports model text ↔ misses'.Reports model text) :
    misses = misses' := by
  -- An entry of one side has a text, which the other side must report too.
  have listed : ∀ {one other : Misses}, one.Substantial →
      (∀ model text, one.Reports model text → other.Reports model text) →
      ∀ (model : String) (texts : Roster String), one[model]? = some texts →
        ∃ texts', other[model]? = some texts' := by
    intro one other full reports model texts found
    obtain ⟨text, member⟩ := full model texts found
    obtain ⟨texts', found', _⟩ := reports model text ⟨texts, found, member⟩
    exact ⟨texts', found'⟩
  apply Std.ExtTreeMap.ext_getElem?
  intro model
  have forth := listed substantial (fun model text => (same model text).mp) model
  have back := listed substantial' (fun model text => (same model text).mpr) model
  cases left : misses[model]? with
  | none =>
      cases right : misses'[model]? with
      | none => rfl
      | some texts =>
          obtain ⟨texts', found⟩ := back texts right
          rw [left] at found
          cases found
  | some texts =>
      obtain ⟨texts', right⟩ := forth texts left
      rw [right]
      congr 1
      apply Std.ExtTreeSet.ext_mem
      intro text
      have reports := same model text
      simpa [Reports, left, right] using reports

/-! ## What is added -/

/-- Exactly some texts have been added, each under the name of a model. -/
structure Adds (before after : Misses) (added : String → String → Prop) : Prop where
  reports : ∀ model text, after.Reports model text ↔
    before.Reports model text ∨ added model text
  substantial : before.Substantial → after.Substantial

section Adds

variable {first second third : Misses} {added more : String → String → Prop}

theorem adds_nothing (misses : Misses) : Adds misses misses (fun _ _ => False) where
  reports := by simp
  substantial := id

theorem adds_record (misses : Misses) (model text : String) :
    Adds misses (misses.record model text)
      (fun other found => other = model ∧ found = text) where
  reports := reports_record misses model text
  substantial := fun substantial => substantial.record model text

theorem Adds.trans (left : Adds first second added) (right : Adds second third more) :
    Adds first third (fun model text => added model text ∨ more model text) where
  reports := by
    intro model text
    rw [right.reports, left.reports, or_assoc]
  substantial := fun substantial => right.substantial (left.substantial substantial)

theorem Adds.congr (adds : Adds first second added)
    (same : ∀ model text, added model text ↔ more model text) : Adds first second more where
  reports := by
    intro model text
    rw [adds.reports, same]
  substantial := adds.substantial

/-- Adding what is reported already changes nothing. -/
theorem adds_of_reported (reported : ∀ model text, added model text →
    first.Reports model text) : Adds first first added where
  reports := by
    intro model text
    constructor
    · exact .inl
    · rintro (known | again)
      · exact known
      · exact reported model text again
  substantial := id

theorem Adds.unique (substantial : first.Substantial) (left : Adds first second added)
    (right : Adds first third added) : second = third := by
  apply (left.substantial substantial).ext (right.substantial substantial)
  intro model text
  rw [left.reports, right.reports]

end Adds

end Misses

/-! ## What a slot misses -/

/-- Looking up a slot of a model misses a text: the slot itself, where it leads
to no material, or the texture of its material, where that is not the missing
texture and no other sprite than a missing one is found for it. -/
inductive Missed (atlases : AtlasSet) (slots : SlotTable) (slot : String) : String → Prop
  | unbound (leads : slots.material? slot = none) : Missed atlases slots slot ("#" ++ slot)
  | texture {material : Material} (leads : slots.material? slot = some material)
      (other : material.texture ≠ Material.missingTexture)
      (absent : ∀ sprite, atlases.sprite? material = some sprite → sprite.isMissing = true) :
      Missed atlases slots slot material.texture.render

section Missed

variable {atlases : AtlasSet} {slots : SlotTable} {slot text : String}

theorem missed_iff_of_none (leads : slots.material? slot = none) :
    Missed atlases slots slot text ↔ text = "#" ++ slot := by
  constructor
  · rintro (_ | ⟨leads', _, _⟩)
    · rfl
    · rw [leads] at leads'
      cases leads'
  · rintro rfl
    exact .unbound leads

theorem missed_iff_of_some {material : Material} (leads : slots.material? slot = some material) :
    Missed atlases slots slot text ↔
      text = material.texture.render ∧ material.texture ≠ Material.missingTexture ∧
        ∀ sprite, atlases.sprite? material = some sprite → sprite.isMissing = true := by
  constructor
  · rintro (leads' | ⟨leads', other, absent⟩)
    · rw [leads] at leads'
      cases leads'
    · rw [leads] at leads'
      obtain rfl := Option.some.inj leads'
      exact ⟨rfl, other, absent⟩
  · rintro ⟨rfl, other, absent⟩
    exact .texture leads other absent

end Missed

/-- The texture of a material is recorded if there is no sprite to show for it
and it is not the missing texture. -/
theorem AtlasSet.lookUp_adds (atlases : AtlasSet) (name : String) (material : Material)
    (misses : Misses) :
    Misses.Adds misses (atlases.lookUp name material misses).2
      (fun model text => model = name ∧ text = material.texture.render ∧
        material.texture ≠ Material.missingTexture ∧
          ∀ sprite, atlases.sprite? material = some sprite → sprite.isMissing = true) := by
  unfold AtlasSet.lookUp
  cases shown : (atlases.sprite? material).filter (fun sprite => !sprite.isMissing) with
  | some sprite =>
      obtain ⟨found, present⟩ := Option.filter_eq_some_iff.mp shown
      refine (Misses.adds_nothing misses).congr fun model text => ?_
      constructor
      · exact False.elim
      · rintro ⟨_, _, _, absent⟩
        simp [absent sprite found] at present
  | none =>
      have absent : ∀ sprite, atlases.sprite? material = some sprite →
          sprite.isMissing = true := by
        intro sprite found
        have hidden := Option.filter_eq_none_iff.mp shown sprite found
        simpa using hidden
      dsimp only
      by_cases asked : material.texture = Material.missingTexture
      · rw [if_pos asked]
        refine (Misses.adds_nothing misses).congr fun model text => ?_
        simp [asked]
      · rw [if_neg asked]
        refine (Misses.adds_record misses name _).congr fun model text => ?_
        exact ⟨fun ⟨named, isTexture⟩ => ⟨named, isTexture, asked, absent⟩,
          fun ⟨named, isTexture, _⟩ => ⟨named, isTexture⟩⟩

namespace Bake

open Misses

/-- The misses of a slot are recorded under the name of the model. -/
theorem slotSprite_adds (subject : Subject) (slot : String) (misses : Misses) :
    Adds misses (slotSprite subject slot misses).2
      (fun model text => model = subject.name ∧
        Missed subject.atlases subject.slots slot text) := by
  unfold slotSprite
  cases leads : subject.slots.material? slot with
  | none =>
      simp only [missed_iff_of_none leads]
      exact adds_record misses subject.name ("#" ++ slot)
  | some material =>
      simp only [missed_iff_of_some leads]
      exact subject.atlases.lookUp_adds subject.name material misses

/-! ## What a bake misses -/

/-- The slots that the faces of an element look up. -/
def faceSlots (element : Element) : List String :=
  element.faces.toList.map (fun entry => faceSlot entry.2)

/-- The slots that the elements of a model look up, those in front of the first
one with a fault. -/
def elementSlots (name : String) (elements : List Element) : List String :=
  (elements.takeWhile (fun element => (element.validate name).isOk)).flatMap faceSlots

theorem faces_adds (subject : Subject) (element : Element)
    (entries : List (Direction × Face)) (misses : Misses) :
    Adds misses (faces subject element entries misses).2
      (fun model text => model = subject.name ∧
        ∃ slot ∈ entries.map (fun entry => faceSlot entry.2),
          Missed subject.atlases subject.slots slot text) := by
  induction entries generalizing misses with
  | nil => exact (adds_nothing misses).congr (by simp)
  | cons entry rest inductionHypothesis =>
      have own := slotSprite_adds subject (faceSlot entry.2) misses
      have others := inductionHypothesis (slotSprite subject (faceSlot entry.2) misses).2
      refine (own.trans others).congr fun model text => ?_
      simp only [List.map_cons, List.mem_cons, exists_eq_or_imp, ← and_or_left]

theorem elements_adds (subject : Subject) (all : List Element) (misses : Misses) :
    Adds misses (elements subject all misses).2
      (fun model text => model = subject.name ∧
        ∃ slot ∈ elementSlots subject.name all,
          Missed subject.atlases subject.slots slot text) := by
  induction all generalizing misses with
  | nil => exact (adds_nothing misses).congr (by simp [elementSlots])
  | cons element rest inductionHypothesis =>
      rw [elements_cons]
      cases valid : element.validate subject.name with
      | error error =>
          refine (adds_nothing misses).congr fun model text => ?_
          simp [elementSlots, valid, Except.isOk, Except.toBool]
      | ok _ =>
          have own := faces_adds subject element element.faces.toList misses
          have others := inductionHypothesis
            (faces subject element element.faces.toList misses).2
          have slots_iff : ∀ slot, slot ∈ elementSlots subject.name (element :: rest) ↔
              slot ∈ faceSlots element ∨ slot ∈ elementSlots subject.name rest := by
            intro slot
            simp [elementSlots, valid, Except.isOk, Except.toBool]
          simp only [slots_iff, or_and_right, exists_or, and_or_left]
          have both := own.trans others
          generalize elements subject rest _ = outcome at both
          obtain ⟨result, after⟩ := outcome
          cases result with
          | error error => exact both
          | ok filed => exact both

end Bake

namespace Bakery

open Misses

/-- A bake of a model misses a text: one of the slots that it looks up, the
particle slot and those of the faces before the first fault, misses it. How
the model is placed does not matter. -/
def Lacks (bakery : Bakery) (id : ResourceId) (text : String) : Prop :=
  ∃ slot ∈ ModelDef.particleSlot ::
      Bake.elementSlots id.render (Inherited.ofChain (bakery.models.chain id)).elements,
    Missed bakery.atlases (SlotTable.resolve (bakery.models.chain id)) slot text

/-- A bake without a cache adds what its model lacks, whatever comes of it. -/
theorem model_adds (bakery : Bakery) (key : BakeKey) (misses : Misses) :
    Adds misses (Bake.model bakery.models bakery.atlases key.id key.placement misses).2
      (fun model text => key.id.render = model ∧ bakery.Lacks key.id text) := by
  unfold Bake.model Bake.chain
  let inherited := Inherited.ofChain (bakery.models.chain key.id)
  let subject : Bake.Subject :=
    ⟨bakery.atlases, key.id.render, inherited.slots, key.placement⟩
  have particle := Bake.slotSprite_adds subject ModelDef.particleSlot misses
  have others := Bake.elements_adds subject inherited.elements
    (Bake.slotSprite subject ModelDef.particleSlot misses).2
  have lacks_iff : ∀ text, bakery.Lacks key.id text ↔
      Missed subject.atlases subject.slots ModelDef.particleSlot text ∨
        ∃ slot ∈ Bake.elementSlots subject.name inherited.elements,
          Missed subject.atlases subject.slots slot text := by
    intro text
    simp only [Lacks, subject, inherited, Inherited.ofChain, List.mem_cons, exists_eq_or_imp]
  simp only [lacks_iff, and_or_left, eq_comm]
  have both := particle.trans others
  generalize Bake.elements subject _ _ = outcome at both ⊢
  obtain ⟨result, after⟩ := outcome
  cases result with
  | error error => exact both
  | ok filed => exact both

end Bakery

end PackModels
