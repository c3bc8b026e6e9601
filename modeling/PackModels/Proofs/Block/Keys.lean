import PackModels.Binding.StateFile
import PackModels.Proofs.Block.Registry
import PackModels.Proofs.Text

/-!
Contract: a variant key says which values a state has.

Where names and values do not contain the marks that a key is written with,
reading the key of a state gives the names of the properties of its block, each
with the value of the state. To tell the states of a block apart by their keys
less is enough: all of them have the same properties, so the values alone must
not contain the mark between properties. Since different states of a block have
different choices, and a property does not have one value twice, no two states
have one name then.

Owns: `Legible`, `Separable` and `Clean`, what names and values must be for that,
and `Unambiguous`, what a block must be for a name to stand for one property.
-/

namespace PackModels

/-- Whether the keys of a property can be read: its name is not empty and
contains neither mark of a key, its values are not empty and do not contain the
mark between properties, and they differ and are few enough to be stored. -/
structure Property.Legible (property : Property) : Prop where
  named : property.name ≠ ""
  unseparatedName : ',' ∉ property.name.toList
  unmarkedName : '=' ∉ property.name.toList
  valued : ∀ value ∈ property.values, value ≠ ""
  unseparatedValues : ∀ value ∈ property.values, ',' ∉ value.toList
  distinct : property.values.toList.Nodup
  few : property.values.size ≤ 65536

instance (property : Property) : Decidable property.Legible :=
  decidable_of_iff
    (property.name ≠ "" ∧ ',' ∉ property.name.toList ∧ '=' ∉ property.name.toList ∧
      (∀ value ∈ property.values, value ≠ "") ∧
      (∀ value ∈ property.values, ',' ∉ value.toList) ∧
      property.values.toList.Nodup ∧ property.values.size ≤ 65536)
    ⟨fun ⟨named, unseparatedName, unmarkedName, valued, unseparatedValues, distinct, few⟩ =>
      ⟨named, unseparatedName, unmarkedName, valued, unseparatedValues, distinct, few⟩,
    fun legible => ⟨legible.named, legible.unseparatedName, legible.unmarkedName,
      legible.valued, legible.unseparatedValues, legible.distinct, legible.few⟩⟩

/-- Whether a property has no value twice and none that contains the mark
between properties. -/
structure Property.Clean (property : Property) : Prop where
  unseparatedValues : ∀ value ∈ property.values, ',' ∉ value.toList
  distinct : property.values.toList.Nodup

/-- Whether keys tell the values of a property apart, all of which are few
enough to be stored. -/
structure Property.Separable (property : Property) : Prop extends property.Clean where
  few : property.values.size ≤ 65536

theorem Property.Legible.separable {property : Property} (legible : property.Legible) :
    property.Separable :=
  ⟨⟨legible.unseparatedValues, legible.distinct⟩, legible.few⟩

namespace StateFile

/-! ## Reading keys -/

/-- Whether a name with a value can be read from a key. -/
structure Readable (pair : String × String) : Prop where
  named : pair.1 ≠ ""
  unseparatedName : ',' ∉ pair.1.toList
  unmarkedName : '=' ∉ pair.1.toList
  valued : pair.2 ≠ ""
  unseparatedValue : ',' ∉ pair.2.toList

theorem parseDemand?_render {pair : String × String} (readable : Readable pair) :
    parseDemand? (pair.1 ++ "=" ++ pair.2) = some pair := by
  have mark : "=".toList = ['='] := rfl
  rw [parseDemand?, Text.cut?_append mark readable.unmarkedName, Option.filter_some]
  simp [readable.named, readable.valued]

/-- A pair that is written has the mark between a name and a value. -/
theorem mem_toList_renderAssignment {pair : String × String} {pairs : List (String × String)} :
    '=' ∈ (Registry.renderAssignment (pair :: pairs)).toList := by
  have mark : '=' ∈ (pair.1 ++ "=" ++ pair.2).toList := by
    simp [String.toList_append]
  unfold Registry.renderAssignment
  rw [List.map_cons]
  cases pairs.map (fun pair => pair.1 ++ "=" ++ pair.2) with
  | nil => exact mark
  | cons second rest =>
      rw [Text.join, String.toList_append, String.toList_append]
      · exact List.mem_append_left _ (List.mem_append_left _ mark)
      · exact List.cons_ne_nil second rest

theorem parseKey?_renderAssignment {pairs : List (String × String)}
    (readable : ∀ pair ∈ pairs, Readable pair) :
    parseKey? (Registry.renderAssignment pairs) = some pairs := by
  cases pairs with
  | nil => rfl
  | cons pair rest =>
      have marked : '=' ∈ (Registry.renderAssignment (pair :: rest)).toList :=
        mem_toList_renderAssignment
      -- The keys that demand nothing have no such mark.
      have special : ¬(Registry.renderAssignment (pair :: rest) = "" ∨
          Registry.renderAssignment (pair :: rest) = "normal") := by
        rintro (same | same)
        · rw [same] at marked
          exact absurd marked (by decide)
        · rw [same] at marked
          exact absurd marked (by decide)
      have separator : ",".toList = [','] := rfl
      rw [parseKey?, if_neg special, Registry.renderAssignment, Text.split_join separator]
      · rw [Json.Decoder.each_map (fun other member => parseDemand?_render (readable other member)),
          List.map_id']
      · exact List.cons_ne_nil _ _
      · intro text member
        obtain ⟨other, listed, rfl⟩ := List.mem_map.mp member
        have mark : "=".toList = ['='] := rfl
        have reads := readable other listed
        rw [String.toList_append, String.toList_append, mark, List.mem_append, List.mem_append,
          List.mem_singleton]
        rintro ((inName | isMark) | inValue)
        · exact reads.unseparatedName inName
        · exact absurd isMark (by decide)
        · exact reads.unseparatedValue inValue

end StateFile

namespace Registry

/-- Whether the keys of all blocks can be read. -/
def Legible (registry : Registry) : Prop :=
  ∀ entry ∈ registry.blocks, ∀ property ∈ entry.definition.properties, property.Legible

theorem Legible.property {registry : Registry} (legible : registry.Legible)
    {handle : BlockHandle} {entry : BlockEntry} (owner : registry.blocks[handle]? = some entry)
    {property : Property} (member : property ∈ entry.definition.properties) :
    property.Legible :=
  legible entry (Array.mem_of_getElem? owner) property member

/-- Whether the keys of all blocks tell their values apart. -/
def Separable (registry : Registry) : Prop :=
  ∀ entry ∈ registry.blocks, ∀ property ∈ entry.definition.properties, property.Separable

theorem Separable.property {registry : Registry} (separable : registry.Separable)
    {handle : BlockHandle} {entry : BlockEntry} (owner : registry.blocks[handle]? = some entry)
    {property : Property} (member : property ∈ entry.definition.properties) :
    property.Separable :=
  separable entry (Array.mem_of_getElem? owner) property member

theorem Legible.separable {registry : Registry} (legible : registry.Legible) :
    registry.Separable :=
  fun entry held property member => (legible entry held property member).separable

/-- A registry is legible if its definitions are. -/
theorem legible_ofDefinitions {definitions : List BlockDef}
    (legible : ∀ definition ∈ definitions, ∀ property ∈ definition.properties,
      property.Legible) :
    (ofDefinitions definitions).1.Legible :=
  properties_ofDefinitions legible

/-- Whether no two properties of a block have one name. -/
def Unambiguous (registry : Registry) : Prop :=
  ∀ entry ∈ registry.blocks, (entry.definition.properties.map Property.name).Nodup

theorem Unambiguous.block {registry : Registry} (unambiguous : registry.Unambiguous)
    {handle : BlockHandle} {entry : BlockEntry} (owner : registry.blocks[handle]? = some entry) :
    (entry.definition.properties.map Property.name).Nodup :=
  unambiguous entry (Array.mem_of_getElem? owner)

/-- A registry is unambiguous if its definitions are. -/
theorem unambiguous_ofDefinitions {definitions : List BlockDef}
    (apart : ∀ definition ∈ definitions, (definition.properties.map Property.name).Nodup) :
    (ofDefinitions definitions).1.Unambiguous := by
  intro entry held
  obtain ⟨handle, owner⟩ := Array.mem_iff_getElem?.mp held
  obtain ⟨definition, listed, same⟩ :=
    (enumerated_ofDefinitions definitions).arranged handle entry owner
  rw [same]
  exact nodup_arrange (apart definition listed)

/-! ## What choices say -/

section Choices

variable {block : BlockDef} {choice : List Nat}

theorem readable_assignment (legible : ∀ property ∈ block.properties, property.Legible)
    (chosen : Chooses block.properties choice) :
    ∀ pair ∈ assignment block choice, StateFile.Readable pair := by
  intro pair member
  obtain ⟨⟨property, position⟩, zipped, rfl⟩ := List.mem_map.mp member
  have below := (List.forall₂_iff_zip.mp chosen).2 zipped
  have legible := legible property (List.of_mem_zip zipped).1
  dsimp only
  rw [Array.getElem?_eq_getElem below, Option.getD_some]
  exact ⟨legible.named, legible.unseparatedName, legible.unmarkedName,
    legible.valued _ (Array.getElem_mem below),
    legible.unseparatedValues _ (Array.getElem_mem below)⟩

/-- Different choices say different things. -/
theorem eq_of_assignment_eq {other : List Nat}
    (distinct : ∀ property ∈ block.properties, property.values.toList.Nodup)
    (chosen : Chooses block.properties choice) (chosen' : Chooses block.properties other)
    (same : assignment block choice = assignment block other) : choice = other := by
  unfold assignment at same
  generalize block.properties = properties at *
  induction chosen generalizing other with
  | nil =>
      cases chosen'
      rfl
  | @cons property position rest choice below _ inductionHypothesis =>
      cases chosen' with
      | @cons _ position' _ other below' chosen' =>
          rw [List.zip_cons_cons, List.zip_cons_cons, List.map_cons, List.map_cons,
            Array.getElem?_eq_getElem below, Array.getElem?_eq_getElem below'] at same
          obtain ⟨head, tail⟩ := List.cons.inj same
          have sameValue : property.values.toList[position] = property.values.toList[position'] :=
            (Prod.mk.inj head).2
          have samePosition : position = position' :=
            (distinct property List.mem_cons_self).getElem_inj_iff.mp sameValue
          have distinctRest : ∀ other ∈ rest, other.values.toList.Nodup :=
            fun other member => distinct other (List.mem_cons_of_mem _ member)
          rw [samePosition, inductionHypothesis distinctRest chosen' tail]

/-- All choices of a block speak of its properties, in order. -/
theorem names_assignment (chosen : Chooses block.properties choice) :
    (assignment block choice).map Prod.fst = block.properties.map Property.name := by
  have firsts : (block.properties.zip choice).map Prod.fst = block.properties :=
    List.map_fst_zip (Nat.le_of_eq (List.Forall₂.length_eq chosen))
  calc (assignment block choice).map Prod.fst
      = ((block.properties.zip choice).map Prod.fst).map Property.name := by
        rw [assignment, List.map_map, List.map_map]
        rfl
    _ = block.properties.map Property.name := by rw [firsts]

/-- What a choice says of a property is one of its values. -/
theorem unseparated_assignment (separable : ∀ property ∈ block.properties, property.Separable)
    (chosen : Chooses block.properties choice) :
    ∀ pair ∈ assignment block choice, ',' ∉ pair.2.toList := by
  intro pair member
  obtain ⟨⟨property, position⟩, zipped, rfl⟩ := List.mem_map.mp member
  have below := (List.forall₂_iff_zip.mp chosen).2 zipped
  dsimp only
  rw [Array.getElem?_eq_getElem below, Option.getD_some]
  exact (separable property (List.of_mem_zip zipped).1).unseparatedValues _
    (Array.getElem_mem below)

/-- The key of several pairs starts with the first pair and the mark between
properties. -/
theorem toList_renderAssignment (pair second : String × String) (rest : List (String × String)) :
    (renderAssignment (pair :: second :: rest)).toList =
      (pair.1.toList ++ "=".toList) ++
        (pair.2.toList ++ ',' :: (renderAssignment (second :: rest)).toList) := by
  have separator : ",".toList = [','] := rfl
  unfold renderAssignment
  rw [List.map_cons, Text.join, String.toList_append, String.toList_append, String.toList_append,
    String.toList_append, separator, List.append_assoc, List.append_assoc, List.append_assoc,
    List.singleton_append, List.append_assoc]
  exact List.cons_ne_nil _ _

/-- Where the names are the same and no value contains the mark between
properties, a key determines the values. -/
theorem renderAssignment_inj {pairs pairs' : List (String × String)}
    (names : pairs.map Prod.fst = pairs'.map Prod.fst)
    (unseparated : ∀ pair ∈ pairs, ',' ∉ pair.2.toList)
    (unseparated' : ∀ pair ∈ pairs', ',' ∉ pair.2.toList)
    (same : renderAssignment pairs = renderAssignment pairs') : pairs = pairs' := by
  induction pairs generalizing pairs' with
  | nil => exact (List.map_eq_nil_iff.mp names.symm).symm
  | cons pair rest inductionHypothesis =>
      cases pairs' with
      | nil => cases names
      | cons pair' rest' =>
          rw [List.map_cons, List.map_cons, List.cons.injEq] at names
          obtain ⟨sameName, namesRest⟩ := names
          have characters := congrArg String.toList same
          cases rest with
          | nil =>
              -- The only value reaches to the end of the key.
              obtain rfl : rest' = [] := List.map_eq_nil_iff.mp namesRest.symm
              have only : ∀ last : String × String,
                  (renderAssignment [last]).toList =
                    (last.1.toList ++ "=".toList) ++ last.2.toList := by
                intro last
                simp [renderAssignment, Text.join]
              rw [only, only, sameName] at characters
              have sameValue := String.toList_inj.mp (List.append_cancel_left characters)
              rw [Prod.ext sameName sameValue]
          | cons second rest =>
              cases rest' with
              | nil => cases namesRest
              | cons second' rest' =>
                  rw [toList_renderAssignment, toList_renderAssignment, sameName] at characters
                  obtain ⟨sameValue, following⟩ := Text.append_inj_of_notMem
                    (unseparated pair List.mem_cons_self)
                    (unseparated' pair' List.mem_cons_self) (List.append_cancel_left characters)
                  have sameRest := inductionHypothesis namesRest
                    (fun other member => unseparated other (List.mem_cons_of_mem _ member))
                    (fun other member => unseparated' other (List.mem_cons_of_mem _ member))
                    (String.toList_inj.mp following)
                  rw [Prod.ext sameName (String.toList_inj.mp sameValue), sameRest]

/-- The value of a property is at its own position, as no other property has
its name. -/
theorem chosen?_getElem (apart : (block.properties.map Property.name).Nodup) {index : Nat}
    (inside : index < block.properties.length) :
    chosen? block choice block.properties[index].name =
      choice[index]?.bind (fun position => block.properties[index].values[position]?) := by
  have found : block.propertyIndex? block.properties[index].name = some index := by
    rw [BlockDef.propertyIndex?, List.findIdx?_eq_some_iff_getElem]
    refine ⟨inside, beq_self_eq_true _, ?_⟩
    intro earlier before same
    have differ := List.pairwise_iff_getElem.mp (List.pairwise_map.mp apart) earlier index
      (Nat.lt_trans before inside) inside before
    exact differ (eq_of_beq same)
  unfold chosen?
  rw [found, Option.bind_eq_bind, Option.bind_some, List.getElem?_eq_getElem inside]
  rfl

/-- What a choice says of a block are the values that it gives to the properties. -/
theorem assignment_eq_chosen (apart : (block.properties.map Property.name).Nodup)
    (chosen : Chooses block.properties choice) :
    (assignment block choice).map (fun pair => (pair.1, some pair.2)) =
      block.properties.map
        (fun property => (property.name, chosen? block choice property.name)) := by
  obtain ⟨sameLength, below⟩ := List.forall₂_iff_zip.mp chosen
  unfold assignment
  apply List.ext_getElem
  · simp [sameLength]
  · intro index inside inside'
    rw [List.length_map] at inside'
    have insideChoice : index < choice.length := sameLength ▸ inside'
    have zipped : (block.properties[index], choice[index]) ∈ block.properties.zip choice := by
      have insideZip : index < (block.properties.zip choice).length := by
        rw [List.length_zip, ← sameLength, Nat.min_self]
        exact inside'
      have member := List.getElem_mem insideZip
      rwa [List.getElem_zip] at member
    rw [List.getElem_map, List.getElem_map, List.getElem_map, List.getElem_zip,
      chosen?_getElem apart inside', List.getElem?_eq_getElem insideChoice, Option.bind_some,
      Array.getElem?_eq_getElem (below zipped), Option.getD_some]

/-- Choices that give the same values to all properties are the same. -/
theorem eq_of_chosen_eq {other : List Nat} (apart : (block.properties.map Property.name).Nodup)
    (distinct : ∀ property ∈ block.properties, property.values.toList.Nodup)
    (chosen : Chooses block.properties choice) (chosen' : Chooses block.properties other)
    (agree : ∀ property ∈ block.properties,
      chosen? block choice property.name = chosen? block other property.name) :
    choice = other := by
  have sameValues : (assignment block choice).map (fun pair => (pair.1, some pair.2)) =
      (assignment block other).map (fun pair => (pair.1, some pair.2)) := by
    rw [assignment_eq_chosen apart chosen, assignment_eq_chosen apart chosen']
    exact List.map_congr_left (fun property member => by rw [agree property member])
  have injective : ∀ left right : String × String,
      (left.1, some left.2) = (right.1, some right.2) → left = right := by
    intro left right same
    obtain ⟨sameName, sameValue⟩ := Prod.mk.inj same
    exact Prod.ext sameName (Option.some.inj sameValue)
  exact eq_of_assignment_eq distinct chosen chosen' ((List.map_inj_right injective).mp sameValues)

end Choices

/-! ## States and their names -/

/-- A state, the block that it belongs to and its choice. -/
structure Located (registry : Registry) (state : StateHandle) (handle : BlockHandle)
    (entry : BlockEntry) (choice : List Nat) : Prop where
  owner : registry.blocks[handle]? = some entry
  held : ∃ fluid, registry.states[state]? = some ⟨handle, choice, fluid⟩

namespace Located

variable {registry : Registry} {state : StateHandle} {handle : BlockHandle} {entry : BlockEntry}
  {choice : List Nat}

theorem state?_eq (located : Located registry state handle entry choice) :
    ∃ found, registry.state? state = some found ∧ found.block = handle ∧
      found.choice = choice := by
  obtain ⟨fluid, held⟩ := located.held
  exact ⟨_, held, rfl, rfl⟩

/-- A state belongs to one block and has one choice. -/
theorem unique {handle' : BlockHandle} {entry' : BlockEntry} {choice' : List Nat}
    (located : Located registry state handle entry choice)
    (located' : Located registry state handle' entry' choice') :
    handle = handle' ∧ entry = entry' ∧ choice = choice' := by
  obtain ⟨fluid, held⟩ := located.held
  obtain ⟨fluid', held'⟩ := located'.held
  obtain ⟨rfl, rfl, _⟩ := BlockState.mk.inj (Option.some.inj (held.symm.trans held'))
  exact ⟨rfl, Option.some.inj (located.owner.symm.trans located'.owner), rfl⟩

theorem blockOf?_eq (located : Located registry state handle entry choice) :
    registry.blockOf? state = some entry.definition := by
  obtain ⟨found, held, rfl, rfl⟩ := located.state?_eq
  unfold blockOf?
  rw [held, Option.bind_eq_bind, Option.bind_some, located.owner]
  rfl

theorem value?_eq (located : Located registry state handle entry choice) (name : String) :
    registry.value? state name = chosen? entry.definition choice name := by
  obtain ⟨found, held, rfl, rfl⟩ := located.state?_eq
  unfold value?
  rw [held, located.blockOf?_eq]
  rfl

theorem variantKey?_eq (located : Located registry state handle entry choice) :
    registry.variantKey? state =
      some (renderAssignment (assignment entry.definition choice)) := by
  obtain ⟨found, held, rfl, rfl⟩ := located.state?_eq
  unfold variantKey?
  rw [held, located.blockOf?_eq]
  rfl

theorem stateId?_eq (located : Located registry state handle entry choice) :
    registry.stateId? state = some ⟨entry.definition.id,
      renderAssignment (assignment entry.definition choice)⟩ := by
  unfold stateId?
  rw [located.blockOf?_eq, located.variantKey?_eq]
  rfl

end Located

namespace Enumerated

variable {definitions : List BlockDef} {registry : Registry} {state other : StateHandle}
  {handle handle' : BlockHandle} {entry entry' : BlockEntry} {choice choice' : List Nat}

/-- Every state has a block and a choice. -/
theorem exists_located (enumerated : Enumerated definitions registry)
    (known : state < registry.stateCount) :
    ∃ handle entry choice, Located registry state handle entry choice := by
  have held : registry.states[state]? = some registry.states[state] :=
    Array.getElem?_eq_getElem known
  obtain ⟨entry, _, owner, _⟩ := (enumerated.placed state _).mp held
  exact ⟨_, entry, _, owner, _, held⟩

/-- The position of a choice among those of its block is the position of its
state among those of the block. -/
theorem exists_position (enumerated : Enumerated definitions registry)
    (located : Located registry state handle entry choice) :
    ∃ position, state = entry.firstState + position ∧
      (choices entry.definition.properties)[position]? = some choice := by
  obtain ⟨fluid, held⟩ := located.held
  obtain ⟨entry', position, owner, place, chosen, _⟩ := (enumerated.placed state _).mp held
  obtain rfl : entry' = entry := Option.some.inj (owner.symm.trans located.owner)
  exact ⟨position, place, chosen⟩

/-- The states of a block are those that belong to it. -/
theorem mem_statesOf_iff (enumerated : Enumerated definitions registry)
    (owner : registry.blocks[handle]? = some entry) :
    state ∈ registry.statesOf handle ↔ ∃ choice, Located registry state handle entry choice := by
  unfold statesOf
  rw [owner]
  dsimp only
  rw [List.mem_range'_1, enumerated.counted handle entry owner]
  constructor
  · rintro ⟨low, high⟩
    obtain ⟨position, rfl⟩ := Nat.exists_eq_add_of_le low
    have inside : position < (choices entry.definition.properties).length :=
      Nat.lt_of_add_lt_add_left high
    have held := (enumerated.placed (entry.firstState + position)
      ⟨handle, (choices entry.definition.properties)[position],
        fluidOf entry.definition (choices entry.definition.properties)[position]⟩).mpr
      ⟨entry, position, owner, rfl, List.getElem?_eq_getElem inside, rfl⟩
    exact ⟨_, owner, _, held⟩
  · rintro ⟨choice, located⟩
    obtain ⟨position, rfl, chosen⟩ := enumerated.exists_position located
    obtain ⟨inside, _⟩ := List.getElem?_eq_some_iff.mp chosen
    omega

theorem chooses_of_few (enumerated : Enumerated definitions registry)
    (few : ∀ property ∈ entry.definition.properties, property.values.size ≤ positionLimit)
    (located : Located registry state handle entry choice) :
    Chooses entry.definition.properties choice := by
  obtain ⟨position, _, chosen⟩ := enumerated.exists_position located
  exact (mem_choices_iff few choice).mp (List.mem_of_getElem? chosen)

theorem chooses (enumerated : Enumerated definitions registry) (separable : registry.Separable)
    (located : Located registry state handle entry choice) :
    Chooses entry.definition.properties choice :=
  enumerated.chooses_of_few
    (fun _ member => (separable.property located.owner member).few) located

/-- Every choice of a block is that of one of its states. -/
theorem exists_state (enumerated : Enumerated definitions registry)
    (few : ∀ property ∈ entry.definition.properties, property.values.size ≤ positionLimit)
    (owner : registry.blocks[handle]? = some entry)
    (chosen : Chooses entry.definition.properties choice) :
    ∃ state, Located registry state handle entry choice := by
  obtain ⟨position, held⟩ :=
    List.mem_iff_getElem?.mp ((mem_choices_iff few choice).mpr chosen)
  have placed := (enumerated.placed (entry.firstState + position)
    ⟨handle, choice, fluidOf entry.definition choice⟩).mpr ⟨entry, position, owner, rfl, held, rfl⟩
  exact ⟨_, owner, _, placed⟩

/-- Two states of one block that have one choice are one state. -/
theorem eq_of_choice_eq (enumerated : Enumerated definitions registry)
    (few : ∀ property ∈ entry.definition.properties, property.values.size ≤ positionLimit)
    (located : Located registry state handle entry choice)
    (located' : Located registry other handle entry choice) : state = other := by
  obtain ⟨position, rfl, chosen⟩ := enumerated.exists_position located
  obtain ⟨position', rfl, chosen'⟩ := enumerated.exists_position located'
  obtain ⟨inside, isChoice⟩ := List.getElem?_eq_some_iff.mp chosen
  obtain ⟨inside', isChoice'⟩ := List.getElem?_eq_some_iff.mp chosen'
  have samePosition : position = position' :=
    (nodup_choices few).getElem_inj_iff.mp (isChoice.trans isChoice'.symm)
  rw [samePosition]

/-- Two states of one block that have the same values are one state. -/
theorem eq_of_values_eq (enumerated : Enumerated definitions registry)
    (few : ∀ property ∈ entry.definition.properties, property.values.size ≤ positionLimit)
    (apart : (entry.definition.properties.map Property.name).Nodup)
    (distinct : ∀ property ∈ entry.definition.properties, property.values.toList.Nodup)
    (located : Located registry state handle entry choice)
    (located' : Located registry other handle entry choice')
    (agree : ∀ property ∈ entry.definition.properties,
      registry.value? state property.name = registry.value? other property.name) :
    state = other := by
  have sameChoice : choice = choice' := by
    apply eq_of_chosen_eq apart distinct (enumerated.chooses_of_few few located)
      (enumerated.chooses_of_few few located')
    intro property member
    rw [← located.value?_eq, ← located'.value?_eq]
    exact agree property member
  subst sameChoice
  exact enumerated.eq_of_choice_eq few located located'

/-- What the key of a state says are the values of the state. -/
theorem assignment_eq_values (enumerated : Enumerated definitions registry)
    (unambiguous : registry.Unambiguous) (legible : registry.Legible)
    (located : Located registry state handle entry choice) :
    (assignment entry.definition choice).map (fun pair => (pair.1, some pair.2)) =
      entry.definition.properties.map
        (fun property => (property.name, registry.value? state property.name)) := by
  rw [assignment_eq_chosen (unambiguous.block located.owner)
    (enumerated.chooses legible.separable located)]
  apply List.map_congr_left
  intro property _
  rw [located.value?_eq]

/-- Two states of one block whose keys say the same are one state. -/
theorem eq_of_assignment_eq (enumerated : Enumerated definitions registry)
    (separable : registry.Separable) (located : Located registry state handle entry choice)
    (located' : Located registry other handle entry choice')
    (same : assignment entry.definition choice = assignment entry.definition choice') :
    state = other := by
  have separableBlock : ∀ property ∈ entry.definition.properties, property.Separable :=
    fun _ member => separable.property located.owner member
  have sameChoice : choice = choice' := Registry.eq_of_assignment_eq
    (fun property member => (separableBlock property member).distinct)
    (enumerated.chooses separable located) (enumerated.chooses separable located') same
  subst sameChoice
  exact enumerated.eq_of_choice_eq (fun property member => (separableBlock property member).few)
    located located'

/-- Blocks are told apart by their ids. -/
theorem handle_unique (enumerated : Enumerated definitions registry)
    (owner : registry.blocks[handle]? = some entry)
    (owner' : registry.blocks[handle']? = some entry')
    (same : entry.definition.id = entry'.definition.id) : handle = handle' := by
  have named := (enumerated.named _ _).mpr ⟨entry, owner, rfl⟩
  have named' := (enumerated.named _ _).mpr ⟨entry', owner', rfl⟩
  rw [← same] at named'
  exact Option.some.inj (named.symm.trans named')

/-- No id is that of two blocks. -/
theorem nodup_ids (enumerated : Enumerated definitions registry) : registry.ids.Nodup := by
  apply List.pairwise_iff_getElem.mpr
  intro left right insideLeft insideRight before same
  unfold ids at insideLeft insideRight same
  rw [List.length_map, Array.length_toList] at insideLeft insideRight
  rw [List.getElem_map, List.getElem_map] at same
  have one := enumerated.handle_unique (Array.getElem?_eq_getElem insideLeft)
    (Array.getElem?_eq_getElem insideRight) same
  exact Nat.ne_of_lt before one

/-- The key of a state is read as what it says. -/
theorem parseKey?_eq (enumerated : Enumerated definitions registry)
    (legible : registry.Legible) (located : Located registry state handle entry choice) :
    StateFile.parseKey? (renderAssignment (assignment entry.definition choice)) =
      some (assignment entry.definition choice) :=
  StateFile.parseKey?_renderAssignment
    (readable_assignment (fun _ member => legible.property located.owner member)
      (enumerated.chooses legible.separable located))

/-- Two states of one block with one key are one state. -/
theorem eq_of_key_eq (enumerated : Enumerated definitions registry)
    (separable : registry.Separable) (located : Located registry state handle entry choice)
    (located' : Located registry other handle entry choice')
    (same : renderAssignment (assignment entry.definition choice) =
      renderAssignment (assignment entry.definition choice')) : state = other := by
  have separableBlock : ∀ property ∈ entry.definition.properties, property.Separable :=
    fun _ member => separable.property located.owner member
  have chosen := enumerated.chooses separable located
  have chosen' := enumerated.chooses separable located'
  have names := (names_assignment chosen).trans (names_assignment chosen').symm
  exact enumerated.eq_of_assignment_eq separable located located'
    (renderAssignment_inj names (unseparated_assignment separableBlock chosen)
      (unseparated_assignment separableBlock chosen') same)

/-- Where keys tell values apart, two states with one name are one state. -/
theorem unique_stateId? (enumerated : Enumerated definitions registry)
    (separable : registry.Separable) (known : state < registry.stateCount)
    (known' : other < registry.stateCount)
    (same : registry.stateId? state = registry.stateId? other) : state = other := by
  obtain ⟨handle, entry, choice, located⟩ := enumerated.exists_located known
  obtain ⟨handle', entry', choice', located'⟩ := enumerated.exists_located known'
  rw [located.stateId?_eq, located'.stateId?_eq, Option.some.injEq, StateId.mk.injEq] at same
  obtain rfl := enumerated.handle_unique located.owner located'.owner same.1
  obtain rfl : entry = entry' := Option.some.inj (located.owner.symm.trans located'.owner)
  exact enumerated.eq_of_key_eq separable located located' same.2

theorem eq_of_stateId?_eq (enumerated : Enumerated definitions registry)
    (legible : registry.Legible) (known : state < registry.stateCount)
    (known' : other < registry.stateCount)
    (same : registry.stateId? state = registry.stateId? other) : state = other :=
  enumerated.unique_stateId? legible.separable known known' same

end Enumerated

end Registry

end PackModels
