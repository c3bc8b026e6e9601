import PackModels.Proofs.Block.Keys

/-!
Contract: a registry answers every question about its own states.

A state has one position for each property of its block, and there is a value
at each of these positions. So a value is found exactly if the block has the
property, the key of a state names every property with its value, and the state
with another value is found exactly if that is a value of the property. Values
of all properties are those of exactly one state, if each is one of its
property.

Owns: `Answers`, what is answered about a state.
-/

namespace PackModels.Registry

/-- Whether the positions of all values of all blocks can be stored. -/
def Few (registry : Registry) : Prop :=
  ∀ entry ∈ registry.blocks, ∀ property ∈ entry.definition.properties,
    property.values.size ≤ positionLimit

theorem Few.property {registry : Registry} (few : registry.Few) {handle : BlockHandle}
    {entry : BlockEntry} (owner : registry.blocks[handle]? = some entry) :
    ∀ property ∈ entry.definition.properties, property.values.size ≤ positionLimit :=
  few entry (Array.mem_of_getElem? owner)

/-- The property at the position of a name has this name. -/
theorem exists_of_propertyIndex? {block : BlockDef} {name : String} {index : Nat}
    (found : block.propertyIndex? name = some index) :
    ∃ property, block.properties[index]? = some property ∧ property.name = name := by
  obtain ⟨inside, named, _⟩ := List.findIdx?_eq_some_iff_getElem.mp found
  exact ⟨block.properties[index], List.getElem?_eq_getElem inside, eq_of_beq named⟩

/-- What is answered about a state of a block. -/
structure Answers (registry : Registry) (state : StateHandle) (block : BlockDef) : Prop where
  belongs : registry.blockOf? state = some block
  value : ∀ name, (registry.value? state name).isSome = true ↔
    ∃ property ∈ block.properties, property.name = name
  valueAt : ∀ position, (registry.valueAt? state position).isSome = true ↔
    position < block.properties.length
  withValue : ∀ name value, (registry.withValue? state name value).isSome = true ↔
    ∃ property ∈ block.properties, property.name = name ∧ value ∈ property.values
  variantKey : ∃ pairs, registry.variantKey? state = some (renderAssignment pairs) ∧
    pairs.map (fun pair => (pair.1, some pair.2)) =
      block.properties.map
        (fun property => (property.name, registry.value? state property.name))
  fluid : ∃ found, registry.state? state = some found ∧
    registry.fluid? state = some (fluidOf block found.choice)

/-! ## Positions within a choice -/

section Choices

variable {properties : List Property} {choice : List Nat}

/-- A choice has a position for every property, with a value there. -/
theorem Chooses.exists_getElem? (chosen : Chooses properties choice) {index : Nat}
    {property : Property} (held : properties[index]? = some property) :
    ∃ position, choice[index]? = some position ∧ position < property.values.size := by
  induction chosen generalizing index with
  | nil => simp at held
  | @cons first position _ _ below _ inductionHypothesis =>
      cases index with
      | zero =>
          rw [List.getElem?_cons_zero, Option.some.injEq] at held
          exact ⟨position, List.getElem?_cons_zero, held ▸ below⟩
      | succ index => exact inductionHypothesis held

/-- Another value of a property makes another choice. -/
theorem Chooses.set (chosen : Chooses properties choice) {index position : Nat}
    {property : Property} (held : properties[index]? = some property)
    (below : position < property.values.size) : Chooses properties (choice.set index position) := by
  induction chosen generalizing index with
  | nil => exact .nil
  | cons first rest inductionHypothesis =>
      cases index with
      | zero =>
          rw [List.getElem?_cons_zero, Option.some.injEq] at held
          exact .cons (held ▸ below) rest
      | succ index => exact .cons first (inductionHypothesis held)

/-- A choice gives a value to exactly the properties that the block has. -/
theorem isSome_chosen?_iff {block : BlockDef} (chosen : Chooses block.properties choice)
    (name : String) :
    (chosen? block choice name).isSome = true ↔
      ∃ property ∈ block.properties, property.name = name := by
  rw [← BlockDef.isSome_propertyIndex?_iff]
  unfold chosen?
  cases found : block.propertyIndex? name with
  | none => simp
  | some index =>
      obtain ⟨property, held, _⟩ := exists_of_propertyIndex? found
      obtain ⟨position, isPosition, below⟩ := chosen.exists_getElem? held
      simp [held, isPosition, below]

/-- What is given to a property is one of its values. -/
theorem mem_of_chosen? {block : BlockDef} {name value : String}
    (given : chosen? block choice name = some value) :
    ∃ property ∈ block.properties, property.name = name ∧ value ∈ property.values := by
  obtain ⟨index, isIndex, given⟩ := Option.bind_eq_some_iff.mp given
  obtain ⟨property, held, given⟩ := Option.bind_eq_some_iff.mp given
  obtain ⟨position, _, isValue⟩ := Option.bind_eq_some_iff.mp given
  obtain ⟨named, isNamed, sameName⟩ := exists_of_propertyIndex? isIndex
  obtain rfl : named = property := Option.some.inj (isNamed.symm.trans held)
  exact ⟨named, List.mem_of_getElem? held, sameName, Array.mem_of_getElem? isValue⟩

end Choices

/-! ## Questions about a state -/

section Located

variable {definitions : List BlockDef} {registry : Registry} {state : StateHandle}
  {handle : BlockHandle} {entry : BlockEntry} {choice : List Nat}

theorem Located.isSome_value?_iff (located : Located registry state handle entry choice)
    (chosen : Chooses entry.definition.properties choice) (name : String) :
    (registry.value? state name).isSome = true ↔
      ∃ property ∈ entry.definition.properties, property.name = name := by
  rw [located.value?_eq, isSome_chosen?_iff chosen]

theorem Located.isSome_valueAt?_iff (located : Located registry state handle entry choice)
    (chosen : Chooses entry.definition.properties choice) (position : Nat) :
    (registry.valueAt? state position).isSome = true ↔
      position < entry.definition.properties.length := by
  obtain ⟨found, held, _, rfl⟩ := located.state?_eq
  unfold valueAt?
  rw [held, located.blockOf?_eq]
  cases property : entry.definition.properties[position]? with
  | none =>
      have outside := List.getElem?_eq_none_iff.mp property
      simp [outside]
  | some _ =>
      obtain ⟨inside, same⟩ := List.getElem?_eq_some_iff.mp property
      obtain ⟨value, isValue, below⟩ := chosen.exists_getElem? property
      subst same
      simp [isValue, below, inside]

/-- Whether a state has a choice. -/
def hasChoice (registry : Registry) (choice : List Nat) (state : StateHandle) : Bool :=
  match registry.state? state with
  | some found => found.choice == choice
  | none => false

/-- The state with another value of a property. -/
theorem Located.withValue?_eq (located : Located registry state handle entry choice)
    (name value : String) :
    registry.withValue? state name value =
      (entry.definition.propertyIndex? name).bind (fun index =>
        entry.definition.properties[index]?.bind (fun property =>
          (property.values.findIdx? (· == value)).bind (fun position =>
            (registry.statesOf handle).find?
              (registry.hasChoice (choice.set index (position % positionLimit)))))) := by
  obtain ⟨found, held, rfl, rfl⟩ := located.state?_eq
  unfold withValue?
  rw [held, located.blockOf?_eq]
  rfl

/-- The first state of a block with a choice is the only one. -/
theorem Enumerated.find?_hasChoice_eq_some_iff (enumerated : Enumerated definitions registry)
    (few : registry.Few) (owner : registry.blocks[handle]? = some entry) :
    (registry.statesOf handle).find? (registry.hasChoice choice) = some state ↔
      Located registry state handle entry choice := by
  have located_of_found : ∀ {candidate : StateHandle},
      (registry.statesOf handle).find? (registry.hasChoice choice) = some candidate →
        Located registry candidate handle entry choice := by
    intro candidate found
    have member := List.mem_of_find?_eq_some found
    obtain ⟨choice', located⟩ := (enumerated.mem_statesOf_iff owner).mp member
    obtain ⟨held, isHeld, _, isChoice⟩ := located.state?_eq
    have same := List.find?_some found
    simp only [hasChoice, isHeld, isChoice, beq_iff_eq] at same
    exact same ▸ located
  constructor
  · exact located_of_found
  · intro located
    have member := (enumerated.mem_statesOf_iff owner).mpr ⟨choice, located⟩
    obtain ⟨held, isHeld, _, isChoice⟩ := located.state?_eq
    have present : ((registry.statesOf handle).find? (registry.hasChoice choice)).isSome = true := by
      rw [List.find?_isSome]
      exact ⟨state, member, by simp [hasChoice, isHeld, isChoice]⟩
    obtain ⟨first, found⟩ := Option.isSome_iff_exists.mp present
    have same := enumerated.eq_of_choice_eq (few.property owner) (located_of_found found) located
    rw [found, same]

/-- Asking for a value leads to the state that has the position of this value in
place of its own, and to no other one. -/
theorem Enumerated.withValue?_eq_some_iff (enumerated : Enumerated definitions registry)
    (few : registry.Few) (located : Located registry state handle entry choice)
    {name value : String} {other : StateHandle} :
    registry.withValue? state name value = some other ↔ ∃ index property position,
      entry.definition.propertyIndex? name = some index ∧
      entry.definition.properties[index]? = some property ∧
      property.values.findIdx? (· == value) = some position ∧
      Located registry other handle entry (choice.set index position) := by
  have stored : ∀ {index : Nat} {property : Property} {position : Nat},
      entry.definition.properties[index]? = some property →
      property.values.findIdx? (· == value) = some position →
        position % positionLimit = position := by
    intro index property position held isPosition
    obtain ⟨within, _⟩ := Array.findIdx?_eq_some_iff_getElem.mp isPosition
    have bounded := few.property located.owner property (List.mem_of_getElem? held)
    exact Nat.mod_eq_of_lt (Nat.lt_of_lt_of_le within bounded)
  rw [located.withValue?_eq]
  simp only [Option.bind_eq_some_iff, enumerated.find?_hasChoice_eq_some_iff few located.owner]
  constructor
  · rintro ⟨index, isIndex, property, held, position, isPosition, located'⟩
    rw [stored held isPosition] at located'
    exact ⟨index, property, position, isIndex, held, isPosition, located'⟩
  · rintro ⟨index, property, position, isIndex, held, isPosition, located'⟩
    rw [← stored held isPosition] at located'
    exact ⟨index, isIndex, property, held, position, isPosition, located'⟩

/-- A value is found in a list exactly if it is there. -/
theorem exists_findIdx?_iff {values : Array String} {value : String} :
    (∃ position, values.findIdx? (· == value) = some position) ↔ value ∈ values := by
  rw [← Option.isSome_iff_exists, Array.findIdx?_isSome, Array.any_eq_true']
  simp

/-- There is a state with another value exactly if this is a value of the first
property of that name. -/
theorem Enumerated.exists_withValue?_iff (enumerated : Enumerated definitions registry)
    (few : registry.Few) (located : Located registry state handle entry choice)
    {name value : String} :
    (registry.withValue? state name value).isSome = true ↔ ∃ index property,
      entry.definition.propertyIndex? name = some index ∧
      entry.definition.properties[index]? = some property ∧ value ∈ property.values := by
  have fewHere := few.property located.owner
  rw [Option.isSome_iff_exists]
  simp only [enumerated.withValue?_eq_some_iff few located]
  constructor
  · rintro ⟨other, index, property, position, isIndex, held, isPosition, _⟩
    exact ⟨index, property, isIndex, held, exists_findIdx?_iff.mp ⟨position, isPosition⟩⟩
  · rintro ⟨index, property, isIndex, held, isValue⟩
    obtain ⟨position, isPosition⟩ := exists_findIdx?_iff.mpr isValue
    obtain ⟨within, _, _⟩ := Array.findIdx?_eq_some_iff_getElem.mp isPosition
    obtain ⟨other, located'⟩ := enumerated.exists_state fewHere located.owner
      ((enumerated.chooses_of_few fewHere located).set held within)
    exact ⟨other, index, property, position, isIndex, held, isPosition, located'⟩

theorem Enumerated.isSome_withValue?_iff (enumerated : Enumerated definitions registry)
    (few : registry.Few) (apart : (entry.definition.properties.map Property.name).Nodup)
    (located : Located registry state handle entry choice) (name value : String) :
    (registry.withValue? state name value).isSome = true ↔
      ∃ property ∈ entry.definition.properties,
        property.name = name ∧ value ∈ property.values := by
  rw [enumerated.exists_withValue?_iff few located]
  constructor
  · rintro ⟨index, property, isIndex, held, isValue⟩
    obtain ⟨named, isNamed, sameName⟩ := exists_of_propertyIndex? isIndex
    obtain rfl : named = property := Option.some.inj (isNamed.symm.trans held)
    exact ⟨named, List.mem_of_getElem? held, sameName, isValue⟩
  · rintro ⟨property, member, rfl, isValue⟩
    obtain ⟨index, isIndex⟩ := Option.isSome_iff_exists.mp
      (BlockDef.isSome_propertyIndex?_iff.mpr ⟨property, member, rfl⟩)
    obtain ⟨named, held, sameName⟩ := exists_of_propertyIndex? isIndex
    -- No other property has this name, so the one that is found is this one.
    have same : named = property :=
      List.inj_on_of_nodup_map apart (List.mem_of_getElem? held) member sameName
    exact ⟨index, property, isIndex, same ▸ held, isValue⟩

/-- Every question about a state is answered. -/
theorem Enumerated.answers (enumerated : Enumerated definitions registry) (few : registry.Few)
    (apart : (entry.definition.properties.map Property.name).Nodup)
    (located : Located registry state handle entry choice) :
    Answers registry state entry.definition := by
  have chosen := enumerated.chooses_of_few (few.property located.owner) located
  refine ⟨located.blockOf?_eq, located.isSome_value?_iff chosen,
    located.isSome_valueAt?_iff chosen, enumerated.isSome_withValue?_iff few apart located,
    ⟨_, located.variantKey?_eq, ?_⟩, ?_⟩
  · rw [assignment_eq_chosen apart chosen]
    simp only [located.value?_eq]
  · obtain ⟨fluid, held⟩ := located.held
    obtain ⟨owner, position, owns, _, _, isFluid⟩ := (enumerated.placed state _).mp held
    obtain rfl : owner = entry := Option.some.inj (owns.symm.trans located.owner)
    refine ⟨_, held, ?_⟩
    rw [fluid?, state?, held, Option.map_some, ← isFluid]

/-- Values of all properties of a block are those of one of its states. -/
theorem Enumerated.existsUnique_values (enumerated : Enumerated definitions registry)
    (few : registry.Few) (owner : registry.blocks[handle]? = some entry)
    (apart : (entry.definition.properties.map Property.name).Nodup)
    (distinct : ∀ property ∈ entry.definition.properties, property.values.toList.Nodup)
    {values : String → String}
    (listed : ∀ property ∈ entry.definition.properties, values property.name ∈ property.values) :
    ∃! state, state ∈ registry.statesOf handle ∧
      ∀ property ∈ entry.definition.properties,
        registry.value? state property.name = some (values property.name) := by
  have fewHere := few.property owner
  let choice := entry.definition.properties.map
    (fun property => property.values.toList.idxOf (values property.name))
  have chosen : Chooses entry.definition.properties choice := by
    unfold Chooses
    rw [List.forall₂_map_right_iff, List.forall₂_same]
    intro property member
    exact List.idxOf_lt_length_of_mem (Array.mem_toList_iff.mpr (listed property member))
  obtain ⟨state, located⟩ := enumerated.exists_state fewHere owner chosen
  have has : ∀ property ∈ entry.definition.properties,
      registry.value? state property.name = some (values property.name) := by
    intro property member
    obtain ⟨index, inside, rfl⟩ := List.mem_iff_getElem.mp member
    have isPosition : choice[index]? = some
        (entry.definition.properties[index].values.toList.idxOf
          (values entry.definition.properties[index].name)) := by
      rw [List.getElem?_map, List.getElem?_eq_getElem inside, Option.map_some]
    rw [located.value?_eq, chosen?_getElem apart inside, isPosition, Option.bind_some,
      ← Array.getElem?_toList,
      List.getElem?_idxOf (Array.mem_toList_iff.mpr (listed _ member))]
  refine ⟨state, ⟨(enumerated.mem_statesOf_iff owner).mpr ⟨choice, located⟩, has⟩, ?_⟩
  rintro other ⟨member, has'⟩
  obtain ⟨choice', located'⟩ := (enumerated.mem_statesOf_iff owner).mp member
  apply enumerated.eq_of_values_eq fewHere apart distinct located' located
  intro property held
  rw [has property held, has' property held]

end Located

end PackModels.Registry
