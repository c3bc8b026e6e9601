import PackModels.Model.Slots
import PackModels.Proofs.Lineage
import PackModels.Proofs.Text

/-!
Contract: a slot has the material that the references from it lead to.

A slot of a chain of models is bound by the first model of the chain that binds
it, and a reference is followed in the whole chain, not in the model that makes
it. From each slot there is one way along references. It ends at a slot bound
to a material, or at one that no model binds, or it comes back to a slot it has
passed; only in the first case does the slot have a material.

Owns: the ways along references, the search that gives up where a slot comes
for the second time, and that `resolve` answers what it comes to. `follow`
counts steps instead of remembering slots: a way to a material passes distinct
slots that are all bound, so as many steps as there are bound slots suffice.

Does not own: how a slot is written in a file (`SlotValue.parse`).
-/

namespace PackModels.SlotTable

open PackModels.Lineage

/-- What the first model of a chain that binds a slot binds it to. -/
def boundTo? (chain : List ModelDef) (slot : String) : Option SlotValue :=
  chain.findSome? (fun definition => definition.textures[slot]?)

theorem getElem?_bindings (chain : List ModelDef) (slot : String) :
    (bindings chain)[slot]? = boundTo? chain slot := by
  rw [bindings, Table.getElem?_ofPairsFirst, List.find?_flatMap, boundTo?]
  simp only [Table.find?_toList]
  induction chain with
  | nil => rfl
  | cons definition rest inductionHypothesis =>
      simp only [List.findSome?_cons]
      cases definition.textures[slot]? with
      | none => exact inductionHypothesis
      | some value => rfl

/-! ## Ways along references -/

/-- A way along references from a slot to a last one, with the slots it passes
before that. -/
inductive Way (chain : List ModelDef) : String → List String → String → Prop where
  | here (slot : String) : Way chain slot [] slot
  | onward (slot next : String) (passed : List String) (last : String)
      (refers : boundTo? chain slot = some (.reference next)) (rest : Way chain next passed last) :
      Way chain slot (slot :: passed) last

/-- The search for the material of a slot, with the slots seen before it and
what it comes to. It gives up where a slot comes for the second time. -/
inductive Search (chain : List ModelDef) : List String → String → Option Material → Prop where
  | again (seen : List String) (slot : String) (met : slot ∈ seen) : Search chain seen slot none
  | unbound (seen : List String) (slot : String) (new : slot ∉ seen)
      (free : boundTo? chain slot = none) : Search chain seen slot none
  | found (seen : List String) (slot : String) (material : Material) (new : slot ∉ seen)
      (held : boundTo? chain slot = some (.material material)) :
      Search chain seen slot (some material)
  | onward (seen : List String) (slot next : String) (result : Option Material)
      (new : slot ∉ seen) (refers : boundTo? chain slot = some (.reference next))
      (rest : Search chain (slot :: seen) next result) : Search chain seen slot result

variable {chain : List ModelDef} {seen passed : List String} {slot last : String}

/-- The slot that a slot refers to. -/
def next? (chain : List ModelDef) (slot : String) : Option String :=
  match boundTo? chain slot with
  | some (.reference next) => some next
  | _ => none

theorem next?_of_reference {next : String} (refers : boundTo? chain slot = some (.reference next)) :
    next? chain slot = some next := by
  rw [next?, refers]

theorem next?_of_material {material : Material}
    (held : boundTo? chain slot = some (.material material)) : next? chain slot = none := by
  rw [next?, held]

theorem next?_of_unbound (free : boundTo? chain slot = none) : next? chain slot = none := by
  rw [next?, free]

theorem Way.reaches (way : Way chain slot passed last) : Reaches (next? chain) slot last := by
  induction way with
  | here slot => exact .refl
  | onward slot next passed last refers rest inductionHypothesis =>
      exact .head (next?_of_reference refers) inductionHypothesis

/-- A way that comes back to a slot it has passed is on a loop. -/
theorem Way.onLoop (way : Way chain slot passed last) (back : last ∈ passed) :
    OnLoop (next? chain) last := by
  induction way with
  | here slot => cases back
  | onward slot next passed last refers rest inductionHypothesis =>
      rcases List.mem_cons.mp back with same | earlier
      · subst same
        exact .head' (next?_of_reference refers) rest.reaches
      · exact inductionHypothesis earlier

/-- No slot leads both to a material and nowhere. -/
theorem Way.not_nowhere (way : Way chain slot passed last) {material : Material}
    (held : boundTo? chain last = some (.material material)) {passed' : List String}
    {last' : String} (other : Way chain slot passed' last') :
    ¬ (boundTo? chain last' = none ∨ last' ∈ passed') := by
  have ended := next?_of_material held
  have onward := way.reaches.to_end ended other.reaches
  rintro (free | back)
  · have same := onward.eq_of_parent?_eq_none (next?_of_unbound free)
    rw [← same, held] at free
    cases free
  · have loop := (other.onLoop back).of_reaches onward
    exact not_onLoop_of_parent?_eq_none ended loop

theorem Way.material_unique (way : Way chain slot passed last) {material material' : Material}
    (held : boundTo? chain last = some (.material material)) {passed' : List String}
    {last' : String} (other : Way chain slot passed' last')
    (held' : boundTo? chain last' = some (.material material')) : material' = material := by
  have onward := way.reaches.to_end (next?_of_material held) other.reaches
  have same := onward.eq_of_parent?_eq_none (next?_of_material held')
  rw [same, held'] at held
  cases held
  rfl

/-! ## The search ends -/

/-- Slots that a search has passed: they are distinct, and all are bound. -/
structure Passed (chain : List ModelDef) (seen : List String) : Prop where
  distinct : seen.Nodup
  bound : ∀ slot ∈ seen, boundTo? chain slot ≠ none

theorem Passed.nil : Passed chain [] := by
  refine ⟨List.nodup_nil, ?_⟩
  intro slot member
  cases member

theorem Passed.cons (all : Passed chain seen) (new : slot ∉ seen)
    (bound : boundTo? chain slot ≠ none) : Passed chain (slot :: seen) where
  distinct := List.nodup_cons.mpr ⟨new, all.distinct⟩
  bound := by
    intro earlier member
    rcases List.mem_cons.mp member with same | before
    · exact same ▸ bound
    · exact all.bound earlier before

theorem Passed.length_le (all : Passed chain seen) : seen.length ≤ (bindings chain).size := by
  apply Table.length_le_size all.distinct
  intro slot member
  rw [Std.ExtTreeMap.mem_iff_isSome_getElem?, getElem?_bindings]
  exact Option.isSome_iff_ne_none.mpr (all.bound slot member)

/-- Every search ends: each round passes one more bound slot. -/
theorem Passed.exists_search (all : Passed chain seen) (remaining : Nat)
    (enough : (bindings chain).size < remaining + seen.length) (slot : String) :
    ∃ result, Search chain seen slot result := by
  induction remaining generalizing seen slot with
  | zero =>
      have counted := all.length_le
      omega
  | succ remaining inductionHypothesis =>
      by_cases met : slot ∈ seen
      · exact ⟨none, .again seen slot met⟩
      · cases held : boundTo? chain slot with
        | none => exact ⟨none, .unbound seen slot met held⟩
        | some value =>
            cases value with
            | material material => exact ⟨some material, .found seen slot material met held⟩
            | reference next =>
                obtain ⟨result, rest⟩ := inductionHypothesis (all.cons met (by simp [held]))
                  (by simp only [List.length_cons]; omega) next
                exact ⟨result, .onward seen slot next result met held rest⟩

/-- A search that finds a material has gone a way to it, past fewer slots than
are bound. -/
theorem Search.way_of_some {result : Option Material} (search : Search chain seen slot result)
    (all : Passed chain seen) {material : Material} (found : result = some material) :
    ∃ passed last, Way chain slot passed last ∧
      boundTo? chain last = some (.material material) ∧
      passed.length + seen.length < (bindings chain).size := by
  induction search with
  | again => cases found
  | unbound => cases found
  | found seen slot other new held =>
      obtain rfl := Option.some.inj found
      have counted := (all.cons new (by simp [held])).length_le
      refine ⟨[], slot, .here slot, held, ?_⟩
      rw [List.length_cons] at counted
      rw [List.length_nil]
      omega
  | onward seen slot next result new refers rest inductionHypothesis =>
      obtain ⟨passed, last, way, held, short⟩ :=
        inductionHypothesis (all.cons new (by simp [refers])) found
      refine ⟨slot :: passed, last, .onward slot next passed last refers way, held, ?_⟩
      simp only [List.length_cons] at short ⊢
      omega

/-- A search that gives up has gone a way to a slot that is not bound or comes
for the second time. -/
theorem Search.way_of_none {result : Option Material} (search : Search chain seen slot result)
    (gaveUp : result = none) :
    ∃ passed last, Way chain slot passed last ∧
      (boundTo? chain last = none ∨ last ∈ passed ∨ last ∈ seen) := by
  induction search with
  | again seen slot met => exact ⟨[], slot, .here slot, .inr (.inr met)⟩
  | unbound seen slot new free => exact ⟨[], slot, .here slot, .inl free⟩
  | found => cases gaveUp
  | onward seen slot next result new refers rest inductionHypothesis =>
      obtain ⟨passed, last, way, nowhere⟩ := inductionHypothesis gaveUp
      refine ⟨slot :: passed, last, .onward slot next passed last refers way, ?_⟩
      simp only [List.mem_cons] at nowhere ⊢
      tauto

/-! ## What following comes to -/

/-- Following with enough steps finds the material at the end of a way. -/
theorem Way.follow_eq (way : Way chain slot passed last) {material : Material}
    (held : boundTo? chain last = some (.material material)) {steps : Nat}
    (enough : passed.length < steps) :
    follow (bindings chain) steps slot = some material := by
  induction way generalizing steps with
  | here slot =>
      obtain ⟨rest, rfl⟩ := Nat.exists_eq_add_one_of_ne_zero (Nat.ne_of_gt enough)
      simp only [follow, getElem?_bindings, held]
  | onward slot next passed last refers rest inductionHypothesis =>
      rw [List.length_cons] at enough
      obtain ⟨fewer, rfl⟩ := Nat.exists_eq_add_one_of_ne_zero (Nat.ne_of_gt (by omega : 0 < steps))
      simp only [follow, getElem?_bindings, refers]
      exact inductionHypothesis held (by omega)

/-- What following finds is at the end of a way. -/
theorem way_of_follow {steps : Nat} {material : Material}
    (found : follow (bindings chain) steps slot = some material) :
    ∃ passed last, Way chain slot passed last ∧
      boundTo? chain last = some (.material material) := by
  induction steps generalizing slot with
  | zero => cases found
  | succ steps inductionHypothesis =>
      rw [follow, getElem?_bindings] at found
      cases held : boundTo? chain slot with
      | none =>
          rw [held] at found
          cases found
      | some value =>
          cases value with
          | material other =>
              rw [held] at found
              obtain rfl := Option.some.inj found
              exact ⟨[], slot, .here slot, held⟩
          | reference next =>
              rw [held] at found
              obtain ⟨passed, last, way, atEnd⟩ := inductionHypothesis found
              exact ⟨slot :: passed, last, .onward slot next passed last held way, atEnd⟩

/-- On a way that leads nowhere nothing is found in any number of steps. -/
theorem Way.follow_eq_none (way : Way chain slot passed last)
    (nowhere : boundTo? chain last = none ∨ last ∈ passed) (steps : Nat) :
    follow (bindings chain) steps slot = none := by
  cases followed : follow (bindings chain) steps slot with
  | none => rfl
  | some material =>
      obtain ⟨passed', last', toMaterial, held⟩ := way_of_follow followed
      exact absurd nowhere (toMaterial.not_nowhere held way)

/-- Counting steps comes to what remembering slots comes to. -/
theorem search_follow (chain : List ModelDef) (slot : String) :
    Search chain [] slot (follow (bindings chain) (bindings chain).size slot) := by
  have enough : (bindings chain).size < ((bindings chain).size + 1) + ([] : List String).length :=
    Nat.lt_succ_self _
  obtain ⟨result, search⟩ := Passed.nil.exists_search _ enough slot
  cases result with
  | some material =>
      obtain ⟨passed, last, way, held, short⟩ := search.way_of_some Passed.nil rfl
      rw [way.follow_eq held (by simpa using short)]
      exact search
  | none =>
      obtain ⟨passed, last, way, nowhere⟩ := search.way_of_none rfl
      rw [way.follow_eq_none (by simpa using nowhere)]
      exact search

/-! ## What a slot is resolved to -/

/-- The bound slots that have a material, with their materials. -/
def resolvedEntries (chain : List ModelDef) : List (String × Material) :=
  (bindings chain).toList.filterMap
    (fun entry => (follow (bindings chain) (bindings chain).size entry.1).map
      (fun material => (entry.1, material)))

theorem mem_resolvedEntries_iff {material : Material} :
    (slot, material) ∈ resolvedEntries chain ↔
      follow (bindings chain) (bindings chain).size slot = some material := by
  rw [resolvedEntries, List.mem_filterMap]
  constructor
  · rintro ⟨entry, _, picked⟩
    obtain ⟨other, followed, same⟩ := Option.map_eq_some_iff.mp picked
    obtain ⟨rfl, rfl⟩ := Prod.mk.inj same
    exact followed
  · intro followed
    cases held : boundTo? chain slot with
    | none =>
        rw [(Way.here slot).follow_eq_none (.inl held)] at followed
        cases followed
    | some value =>
        have listed := Std.ExtTreeMap.mem_toList_iff_getElem?_eq_some.mpr
          ((getElem?_bindings chain slot).trans held)
        exact ⟨(slot, value), listed, by rw [followed, Option.map_some]⟩

theorem getElem?_materials_resolve (chain : List ModelDef) (slot : String) :
    (resolve chain).materials[slot]? = follow (bindings chain) (bindings chain).size slot := by
  have agree : ∀ key material material', (key, material) ∈ resolvedEntries chain →
      (key, material') ∈ resolvedEntries chain → material = material' := by
    intro key material material' member member'
    rw [mem_resolvedEntries_iff] at member member'
    exact Option.some.inj (member.symm.trans member')
  apply Option.ext
  intro material
  change (Table.ofPairs (resolvedEntries chain))[slot]? = some material ↔ _
  rw [Table.getElem?_ofPairs_iff agree, mem_resolvedEntries_iff]

/-- A slot has the material that the way along references from it ends at. -/
theorem getElem?_materials_eq_some_iff {material : Material} :
    (resolve chain).materials[slot]? = some material ↔
      ∃ passed last, Way chain slot passed last ∧
        boundTo? chain last = some (.material material) := by
  rw [getElem?_materials_resolve]
  constructor
  · exact way_of_follow
  · rintro ⟨passed, last, way, held⟩
    have search := search_follow chain slot
    cases followed : follow (bindings chain) (bindings chain).size slot with
    | none =>
        rw [followed] at search
        obtain ⟨passed', last', other, nowhere⟩ := search.way_of_none rfl
        exact absurd (by simpa using nowhere) (way.not_nowhere held other)
    | some material' =>
        obtain ⟨passed', last', other, held'⟩ := way_of_follow followed
        rw [way.material_unique held other held']

theorem material?_hash (slots : SlotTable) (slot : String) :
    slots.material? ("#" ++ slot) = slots.materials[slot]? := by
  have isMark : ("#" : String).toList = ['#'] := rfl
  rw [material?, (Text.dropLeading?_mark isMark).mpr rfl, Option.getD_some]

/-- The search for the material of a slot ends, and `resolve` answers what it
comes to: a slot has a material exactly if the way along references from it
ends at a slot bound to that material, and none exactly if the way comes to a
slot that no model binds or to one that it has passed. -/
theorem material?_resolve_iff (chain : List ModelDef) (slot : String) :
    Search chain [] slot ((resolve chain).material? ("#" ++ slot)) ∧
    (∀ material, (resolve chain).material? ("#" ++ slot) = some material ↔
      ∃ passed last, Way chain slot passed last ∧
        boundTo? chain last = some (.material material)) ∧
    ((resolve chain).material? ("#" ++ slot) = none ↔
      ∃ passed last, Way chain slot passed last ∧
        (boundTo? chain last = none ∨ last ∈ passed)) := by
  rw [material?_hash]
  refine ⟨?_, fun material => getElem?_materials_eq_some_iff, ?_⟩ <;>
    rw [getElem?_materials_resolve]
  · exact search_follow chain slot
  · constructor
    · intro gaveUp
      obtain ⟨passed, last, way, nowhere⟩ := (search_follow chain slot).way_of_none gaveUp
      exact ⟨passed, last, way, by simpa using nowhere⟩
    · rintro ⟨passed, last, way, nowhere⟩
      exact way.follow_eq_none nowhere _

end PackModels.SlotTable
