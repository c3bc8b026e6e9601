import PackModels.Proofs.Block.Layout

/-!
Contract: the state with another value of a property.

Where the values of every property differ and are few enough to be stored, a state
is determined by its block and the values at the positions of its properties. So
the state with another value is there exactly if the block has the property and the
value is one of its values, and it is the only state of the block that has this
value there and keeps the values at all other positions. Asking for the value that
a state has leads to the state itself, a second value of one property replaces the
first one, and the values of two properties can be asked for in either order. A
name stands for the first property that has it.

Owns: `Sibling`, which says which state is asked for, and `Exchanges`, all that asking
for other values does.
-/

namespace PackModels.Registry

/-- Whether no property of a block has a value twice. -/
def Distinct (registry : Registry) : Prop :=
  ∀ entry ∈ registry.blocks, ∀ property ∈ entry.definition.properties,
    property.values.toList.Nodup

/-- Whether a state has a value at the position of one property, and at every other
position the value of some state of its block. -/
structure Sibling (registry : Registry) (state : StateHandle) (index : Nat) (value : String)
    (other : StateHandle) : Prop where
  together : ∃ handle, state ∈ registry.statesOf handle ∧ other ∈ registry.statesOf handle
  changed : registry.valueAt? other index = some value
  kept : ∀ position, position ≠ index →
    registry.valueAt? other position = registry.valueAt? state position

/-- All that asking for other values of a state of a block does. -/
structure Exchanges (registry : Registry) (state : StateHandle) (block : BlockDef) : Prop where
  present : ∀ name value, (registry.withValue? state name value).isSome = true ↔
    ∃ index property, block.propertyIndex? name = some index ∧
      block.properties[index]? = some property ∧ value ∈ property.values
  sibling : ∀ name value other, registry.withValue? state name value = some other ↔
    ∃ index, block.propertyIndex? name = some index ∧ Sibling registry state index value other
  only : ∀ index property value, block.properties[index]? = some property →
    value ∈ property.values → ∃! other, Sibling registry state index value other
  named : ∀ name value other, registry.withValue? state name value = some other →
    registry.value? other name = some value ∧
      ∀ name', name' ≠ name → registry.value? other name' = registry.value? state name'
  self : ∀ name value, registry.value? state name = some value →
    registry.withValue? state name value = some state
  again : ∀ name first second other, registry.withValue? state name first = some other →
    registry.withValue? other name second = registry.withValue? state name second
  apart : ∀ name value name' value', name' ≠ name →
    (registry.withValue? state name value).bind
        (fun other => registry.withValue? other name' value') =
      (registry.withValue? state name' value').bind
        (fun other => registry.withValue? other name value)

/-! ## Values at positions -/

/-- The value that a choice gives to the property at a position. -/
def given? (properties : List Property) (choice : List Nat) (position : Nat) : Option String :=
  properties[position]?.bind (fun property =>
    choice[position]?.bind (fun value => property.values[value]?))

section Given

variable {properties : List Property} {choice other : List Nat} {index : Nat}
  {property : Property}

/-- Choices that give the same values at all positions are the same. -/
theorem Chooses.eq_of_given?_eq
    (distinct : ∀ property ∈ properties, property.values.toList.Nodup)
    (chosen : Chooses properties choice) (chosen' : Chooses properties other)
    (agree : ∀ position, given? properties choice position = given? properties other position) :
    choice = other := by
  apply List.ext_getElem?
  intro position
  cases held : properties[position]? with
  | none =>
      have outside : properties.length ≤ position := List.getElem?_eq_none_iff.mp held
      rw [List.getElem?_eq_none (chosen.length_eq ▸ outside),
        List.getElem?_eq_none (chosen'.length_eq ▸ outside)]
  | some property =>
      obtain ⟨value, isValue, below⟩ := chosen.exists_getElem? held
      obtain ⟨value', isValue', below'⟩ := chosen'.exists_getElem? held
      have sameValue : property.values.toList[value] = property.values.toList[value'] := by
        simpa [given?, held, isValue, isValue', below, below'] using agree position
      have same : value = value' :=
        (distinct property (List.mem_of_getElem? held)).getElem_inj_iff.mp sameValue
      rw [isValue, isValue', same]

theorem Chooses.given?_set_self (chosen : Chooses properties choice)
    (held : properties[index]? = some property) (position : Nat) :
    given? properties (choice.set index position) index = property.values[position]? := by
  obtain ⟨before, isBefore, _⟩ := chosen.exists_getElem? held
  have inside : index < choice.length := (List.getElem?_eq_some_iff.mp isBefore).1
  simp [given?, held, List.getElem?_set_self inside]

theorem given?_set_of_ne {place : Nat} (different : place ≠ index) (position : Nat) :
    given? properties (choice.set index position) place = given? properties choice place := by
  rw [given?, given?, List.getElem?_set_ne different.symm]

end Given

section Located

variable {definitions : List BlockDef} {registry : Registry} {state other : StateHandle}
  {handle : BlockHandle} {entry : BlockEntry} {choice : List Nat} {index : Nat}
  {property : Property} {name value : String}

theorem Located.valueAt?_eq (located : Located registry state handle entry choice)
    (position : Nat) :
    registry.valueAt? state position = given? entry.definition.properties choice position := by
  obtain ⟨found, held, rfl, rfl⟩ := located.state?_eq
  unfold valueAt?
  rw [held, located.blockOf?_eq]
  rfl

/-- The value that a state gives to a name is at the position of the name. -/
theorem Located.value?_eq_valueAt? (located : Located registry state handle entry choice)
    (isIndex : entry.definition.propertyIndex? name = some index) :
    registry.value? state name = registry.valueAt? state index := by
  rw [located.value?_eq, located.valueAt?_eq, chosen?, isIndex, given?]
  rfl

/-- A state belongs to one block only. -/
theorem Enumerated.exists_located_of_together (enumerated : Enumerated definitions registry)
    (located : Located registry state handle entry choice)
    (together : ∃ handle, state ∈ registry.statesOf handle ∧ other ∈ registry.statesOf handle) :
    ∃ choice', Located registry other handle entry choice' := by
  obtain ⟨handle', member, member'⟩ := together
  cases owner : registry.blocks[handle']? with
  | none => simp [statesOf, owner] at member
  | some entry' =>
      obtain ⟨again, located'⟩ := (enumerated.mem_statesOf_iff owner).mp member
      obtain ⟨rfl, rfl, _⟩ := located.unique located'
      exact (enumerated.mem_statesOf_iff owner).mp member'

/-- The state with another position at one place of its choice is the sibling with
the value at this position. -/
theorem Enumerated.sibling_iff (enumerated : Enumerated definitions registry)
    (few : registry.Few) (distinct : registry.Distinct)
    (located : Located registry state handle entry choice)
    (held : entry.definition.properties[index]? = some property) :
    Sibling registry state index value other ↔ ∃ position,
      property.values.findIdx? (· == value) = some position ∧
      Located registry other handle entry (choice.set index position) := by
  have fewHere := few.property located.owner
  have distinctHere := distinct entry (Array.mem_of_getElem? located.owner)
  have chosen := enumerated.chooses_of_few fewHere located
  constructor
  · intro sibling
    obtain ⟨choice', located'⟩ :=
      enumerated.exists_located_of_together located sibling.together
    have chosen' := enumerated.chooses_of_few fewHere located'
    have changed := sibling.changed
    rw [located'.valueAt?_eq, given?, held, Option.bind_some] at changed
    obtain ⟨_, _, isValue⟩ := Option.bind_eq_some_iff.mp changed
    obtain ⟨position, isPosition⟩ := exists_findIdx?_iff.mpr (Array.mem_of_getElem? isValue)
    obtain ⟨within, found, _⟩ := Array.findIdx?_eq_some_iff_getElem.mp isPosition
    refine ⟨position, isPosition, ?_⟩
    have same : choice' = choice.set index position := by
      apply chosen'.eq_of_given?_eq distinctHere (chosen.set held within)
      intro place
      rw [← located'.valueAt?_eq]
      by_cases here : place = index
      · rw [here, chosen.given?_set_self held, sibling.changed, Array.getElem?_eq_getElem within,
          eq_of_beq found]
      · rw [given?_set_of_ne here, ← located.valueAt?_eq, sibling.kept place here]
    exact same ▸ located'
  · rintro ⟨position, isPosition, located'⟩
    obtain ⟨within, found, _⟩ := Array.findIdx?_eq_some_iff_getElem.mp isPosition
    refine ⟨⟨handle, ?_, ?_⟩, ?_, ?_⟩
    · exact (enumerated.mem_statesOf_iff located.owner).mpr ⟨_, located⟩
    · exact (enumerated.mem_statesOf_iff located.owner).mpr ⟨_, located'⟩
    · rw [located'.valueAt?_eq, chosen.given?_set_self held, Array.getElem?_eq_getElem within,
        eq_of_beq found]
    · intro place different
      rw [located'.valueAt?_eq, located.valueAt?_eq, given?_set_of_ne different]

/-- For each value of a property there is one sibling with this value. -/
theorem Enumerated.existsUnique_sibling (enumerated : Enumerated definitions registry)
    (few : registry.Few) (distinct : registry.Distinct)
    (located : Located registry state handle entry choice)
    (held : entry.definition.properties[index]? = some property)
    (isValue : value ∈ property.values) : ∃! other, Sibling registry state index value other := by
  have fewHere := few.property located.owner
  obtain ⟨position, isPosition⟩ := exists_findIdx?_iff.mpr isValue
  obtain ⟨within, _⟩ := Array.findIdx?_eq_some_iff_getElem.mp isPosition
  obtain ⟨other, located'⟩ := enumerated.exists_state fewHere located.owner
    ((enumerated.chooses_of_few fewHere located).set held within)
  refine ⟨other, (enumerated.sibling_iff few distinct located held).mpr
    ⟨position, isPosition, located'⟩, fun third sibling => ?_⟩
  obtain ⟨position', isPosition', located''⟩ :=
    (enumerated.sibling_iff few distinct located held).mp sibling
  obtain rfl : position' = position := Option.some.inj (isPosition'.symm.trans isPosition)
  exact enumerated.eq_of_choice_eq fewHere located'' located'

/-- Asking for a value leads to the sibling with this value. -/
theorem Enumerated.withValue?_eq_some_iff_sibling (enumerated : Enumerated definitions registry)
    (few : registry.Few) (distinct : registry.Distinct)
    (located : Located registry state handle entry choice) :
    registry.withValue? state name value = some other ↔ ∃ index,
      entry.definition.propertyIndex? name = some index ∧
      Sibling registry state index value other := by
  rw [enumerated.withValue?_eq_some_iff few located]
  constructor
  · rintro ⟨index, property, position, isIndex, held, isPosition, located'⟩
    exact ⟨index, isIndex, (enumerated.sibling_iff few distinct located held).mpr
      ⟨position, isPosition, located'⟩⟩
  · rintro ⟨index, isIndex, sibling⟩
    obtain ⟨property, held, _⟩ := exists_of_propertyIndex? isIndex
    obtain ⟨position, isPosition, located'⟩ :=
      (enumerated.sibling_iff few distinct located held).mp sibling
    exact ⟨index, property, position, isIndex, held, isPosition, located'⟩

end Located

/-! ## One value after another -/

section Exchanges

variable {definitions : List BlockDef} {registry : Registry} {state other : StateHandle}
  {handle : BlockHandle} {entry : BlockEntry} {choice : List Nat} {name name' : String}

/-- Two names of different properties have different positions. -/
theorem index_ne_of_name_ne {block : BlockDef} {index index' : Nat}
    (isIndex : block.propertyIndex? name = some index)
    (isIndex' : block.propertyIndex? name' = some index') (different : name' ≠ name) :
    index' ≠ index := by
  intro same
  obtain ⟨property, held, named⟩ := exists_of_propertyIndex? isIndex
  obtain ⟨property', held', named'⟩ := exists_of_propertyIndex? isIndex'
  rw [same, held, Option.some.injEq] at held'
  exact different (named'.symm.trans (held' ▸ named))

/-- A sibling has the value under the name of the property, and under every other
name the value that was there. -/
theorem Enumerated.value?_of_sibling (enumerated : Enumerated definitions registry)
    (located : Located registry state handle entry choice) {index : Nat} {value : String}
    (isIndex : entry.definition.propertyIndex? name = some index)
    (sibling : Sibling registry state index value other) :
    registry.value? other name = some value ∧
      ∀ name', name' ≠ name → registry.value? other name' = registry.value? state name' := by
  obtain ⟨choice', located'⟩ := enumerated.exists_located_of_together located sibling.together
  refine ⟨(located'.value?_eq_valueAt? isIndex).trans sibling.changed, fun name' different => ?_⟩
  cases isIndex' : entry.definition.propertyIndex? name' with
  | none => simp [located'.value?_eq, located.value?_eq, chosen?, isIndex']
  | some index' =>
      rw [located'.value?_eq_valueAt? isIndex', located.value?_eq_valueAt? isIndex']
      exact sibling.kept index' (index_ne_of_name_ne isIndex isIndex' different)

/-- Asking for the value that a state has leads to the state itself. -/
theorem Enumerated.withValue?_self (enumerated : Enumerated definitions registry)
    (few : registry.Few) (distinct : registry.Distinct)
    (located : Located registry state handle entry choice) {value : String}
    (has : registry.value? state name = some value) :
    registry.withValue? state name value = some state := by
  rw [enumerated.withValue?_eq_some_iff_sibling few distinct located]
  have given := has
  rw [located.value?_eq] at given
  obtain ⟨index, isIndex, _⟩ := Option.bind_eq_some_iff.mp given
  have member : state ∈ registry.statesOf handle :=
    (enumerated.mem_statesOf_iff located.owner).mpr ⟨choice, located⟩
  refine ⟨index, isIndex, ⟨handle, member, member⟩, ?_, fun _ _ => rfl⟩
  rw [← located.value?_eq_valueAt? isIndex, has]

/-- A second value of one property replaces the first one. -/
theorem Enumerated.withValue?_withValue? (enumerated : Enumerated definitions registry)
    (few : registry.Few) (located : Located registry state handle entry choice)
    {first second : String} (leads : registry.withValue? state name first = some other) :
    registry.withValue? other name second = registry.withValue? state name second := by
  obtain ⟨index, property, position, isIndex, held, _, located'⟩ :=
    (enumerated.withValue?_eq_some_iff few located).mp leads
  apply Option.ext
  intro third
  rw [enumerated.withValue?_eq_some_iff few located, enumerated.withValue?_eq_some_iff few located']
  apply exists_congr
  intro index'
  by_cases here : index' = index
  · rw [here]
    simp only [List.set_set]
  · have absent : entry.definition.propertyIndex? name ≠ some index' := by
      rw [isIndex]
      exact fun same => here (Option.some.inj same).symm
    simp [absent]

/-- Values of two properties that can be asked for in one order can be asked for in
the other one, and lead to the same state. -/
theorem Enumerated.withValue?_bind_swap (enumerated : Enumerated definitions registry)
    (few : registry.Few) (located : Located registry state handle entry choice)
    (different : name' ≠ name) {value value' : String}
    (leads : (registry.withValue? state name value).bind
      (fun next => registry.withValue? next name' value') = some other) :
    (registry.withValue? state name' value').bind
      (fun next => registry.withValue? next name value) = some other := by
  have fewHere := few.property located.owner
  obtain ⟨next, leadsNext, leads⟩ := Option.bind_eq_some_iff.mp leads
  obtain ⟨index, property, position, isIndex, held, isPosition, locatedNext⟩ :=
    (enumerated.withValue?_eq_some_iff few located).mp leadsNext
  obtain ⟨index', property', position', isIndex', held', isPosition', locatedOther⟩ :=
    (enumerated.withValue?_eq_some_iff few locatedNext).mp leads
  have apart := index_ne_of_name_ne isIndex isIndex' different
  obtain ⟨within, _⟩ := Array.findIdx?_eq_some_iff_getElem.mp isPosition'
  obtain ⟨third, locatedThird⟩ := enumerated.exists_state fewHere located.owner
    ((enumerated.chooses_of_few fewHere located).set held' within)
  rw [List.set_comm _ _ apart.symm] at locatedOther
  refine Option.bind_eq_some_iff.mpr ⟨third, ?_, ?_⟩
  · exact (enumerated.withValue?_eq_some_iff few located).mpr
      ⟨index', property', position', isIndex', held', isPosition', locatedThird⟩
  · exact (enumerated.withValue?_eq_some_iff few locatedThird).mpr
      ⟨index, property, position, isIndex, held, isPosition, locatedOther⟩

/-- All that asking for other values does to a state of a block. -/
theorem Enumerated.exchanges (enumerated : Enumerated definitions registry)
    (few : registry.Few) (distinct : registry.Distinct)
    (located : Located registry state handle entry choice) :
    Exchanges registry state entry.definition where
  present name value := enumerated.exists_withValue?_iff few located
  sibling name value other := enumerated.withValue?_eq_some_iff_sibling few distinct located
  only index property value held := enumerated.existsUnique_sibling few distinct located held
  named name value other leads := by
    obtain ⟨index, isIndex, sibling⟩ :=
      (enumerated.withValue?_eq_some_iff_sibling few distinct located).mp leads
    exact enumerated.value?_of_sibling located isIndex sibling
  self name value := enumerated.withValue?_self few distinct located
  again name first second other := enumerated.withValue?_withValue? few located
  apart name value name' value' different := by
    apply Option.ext
    intro other
    exact ⟨enumerated.withValue?_bind_swap few located different,
      enumerated.withValue?_bind_swap few located different.symm⟩

end Exchanges

/-! ## A registry of definitions -/

theorem distinct_ofDefinitions {definitions : List BlockDef}
    (distinct : ∀ definition ∈ definitions, ∀ property ∈ definition.properties,
      property.values.toList.Nodup) : (ofDefinitions definitions).1.Distinct :=
  properties_ofDefinitions distinct

/-- In a registry where the values of each property differ and are few enough,
asking for another value of any state leads to the one sibling that has it, if there
is such a value. Asking for its own value leads back, a second value of a property
replaces the first one, and values of two properties can be asked for in either
order. -/
theorem withValue?_exchanges (definitions : List BlockDef)
    (few : (ofDefinitions definitions).1.Few)
    (distinct : (ofDefinitions definitions).1.Distinct) :
    ∀ state < (ofDefinitions definitions).1.stateCount, ∃ block,
      (ofDefinitions definitions).1.blockOf? state = some block ∧
        Exchanges (ofDefinitions definitions).1 state block := by
  intro state known
  have enumerated := enumerated_ofDefinitions definitions
  obtain ⟨handle, entry, choice, located⟩ := enumerated.exists_located known
  exact ⟨_, located.blockOf?_eq, enumerated.exchanges few distinct located⟩

/-- A furnace that faces two ways and is lit or not, after a block of one state: the
states of the furnace are 1 to 4, the one that faces north and is not lit first. -/
theorem withValue?_exchanges_furnace :
    let air := BlockDef.new ⟨"minecraft", "air"⟩
    let furnace : BlockDef := ⟨⟨"minecraft", "furnace"⟩,
      [⟨"facing", #["north", "south"]⟩, ⟨"lit", #["false", "true"]⟩], .model, none⟩
    let registry := (ofDefinitions [air, furnace]).1
    registry.Few ∧ registry.Distinct ∧ registry.stateCount = 5 ∧
      registry.withValue? 1 "lit" "true" = some 2 ∧
      ∀ state < 5, ∃ block, registry.blockOf? state = some block ∧
        Exchanges registry state block := by
  intro air furnace registry
  have few : registry.Few := few_ofDefinitions (by decide)
  have distinct : registry.Distinct := distinct_ofDefinitions (by decide)
  have evaluated : registry.stateCount = 5 ∧ registry.withValue? 1 "lit" "true" = some 2 := by
    have arranged : ∀ definition ∈ [air, furnace], Arranged definition := by decide +kernel
    unfold registry
    rw [ofDefinitions_of_arranged arranged]
    decide +kernel
  obtain ⟨counted, lit⟩ := evaluated
  refine ⟨few, distinct, counted, lit, ?_⟩
  rw [← counted]
  exact withValue?_exchanges [air, furnace] few distinct

end PackModels.Registry
