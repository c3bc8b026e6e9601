import PackModels.Proofs.Block.Mentions
import PackModels.Proofs.Block.Siblings

/-!
Contract: the properties of a definition that is made by adding properties.

Values are given to a definition in lists, each under the name of a property. The
definition has one property for each name, in the order in which the names first
come. The first list of a name is kept as it is; of later lists a property takes
each value that it does not have yet. So a property has each of its values once
if and only if its first list has, and then its values are all that were given
for it, in the order in which they first come. A block whose first lists repeat
no value has no two states with the same values, and any other block has two.

Owns: `ofGiven`, what is made of some lists, `gathered`, what a property keeps of
its lists, and `FirstsDistinct`, where no first list repeats a value.

Does not own: what the lists of a state file or of a fluid are.
-/

namespace PackModels

namespace BlockDef

/-! ## Merged properties -/

/-- A property that is merged in has the values of the one of its name before the
new ones, or only the new ones. Other properties stay as they are. -/
theorem valuesOf_mergeProperty (name : String) (values : List String)
    (properties : List Property) (other : String) :
    valuesOf (mergeProperty name values properties) other =
      if other = name then
        if name ∈ properties.map Property.name then addValues (valuesOf properties name) values
        else values.toArray
      else valuesOf properties other := by
  unfold valuesOf
  induction properties with
  | nil =>
      by_cases same : other = name
      · simp [mergeProperty, same]
      · simp [mergeProperty, same, Ne.symm same]
  | cons property rest inductionHypothesis =>
      rw [mergeProperty]
      by_cases here : property.name = name
      · by_cases same : other = name
        · simp [here, same]
        · simp [here, same, Ne.symm same]
      · by_cases asked : property.name = other
        · subst asked
          simp [here]
        · simp [here, asked, inductionHypothesis, Ne.symm here]

/-- Where no name is that of two properties, a property has the values that are
found under its name. -/
theorem valuesOf_name {properties : List Property}
    (apart : (properties.map Property.name).Nodup) {property : Property}
    (member : property ∈ properties) : valuesOf properties property.name = property.values := by
  have isSome : (properties.find? (fun other => other.name == property.name)).isSome = true := by
    rw [List.find?_isSome]
    exact ⟨property, member, beq_self_eq_true property.name⟩
  obtain ⟨found, isFound⟩ := Option.isSome_iff_exists.mp isSome
  have fits := List.find?_some isFound
  have named : found.name = property.name := eq_of_beq fits
  have same : found = property :=
    List.inj_on_of_nodup_map apart (List.mem_of_find?_eq_some isFound) member named
  rw [valuesOf, isFound, Option.map_some, Option.getD_some, same]

/-! ## What is given to a definition -/

/-- A new definition to which lists of values have been added, each under a name. -/
def ofGiven (id : ResourceId) (given : List (String × List String)) : BlockDef :=
  given.foldl (fun block entry => block.withProperty entry.1 entry.2) (.new id)

/-- The lists that are given under a name, in order. -/
def listsOf (given : List (String × List String)) (name : String) : List (List String) :=
  (given.filter (fun entry => entry.1 == name)).map Prod.snd

/-- What a property keeps of its lists: the first one as it is, and each value of
the others that the first one does not have, once. -/
def gathered : List (List String) → List String
  | [] => []
  | first :: others => first ++ (others.flatten.removeAll first).eraseDups

/-- Whether no list that is the first one of its name has a value twice. -/
def FirstsDistinct (given : List (String × List String)) : Prop :=
  ∀ name ∈ given.map Prod.fst, ∀ first ∈ (listsOf given name).head?, first.Nodup

instance (given : List (String × List String)) : Decidable (FirstsDistinct given) :=
  inferInstanceAs (Decidable (∀ name ∈ given.map Prod.fst,
    ∀ first ∈ (listsOf given name).head?, first.Nodup))

section Given

variable {id : ResourceId} {given : List (String × List String)} {name : String}

theorem ofGiven_append (id : ResourceId) (given : List (String × List String))
    (entry : String × List String) :
    ofGiven id (given ++ [entry]) = (ofGiven id given).withProperty entry.1 entry.2 :=
  List.foldl_append

theorem id_ofGiven (id : ResourceId) (given : List (String × List String)) :
    (ofGiven id given).id = id := by
  induction given using List.reverseRecOn with
  | nil => rfl
  | append_singleton front last inductionHypothesis =>
      rw [ofGiven_append]
      exact inductionHypothesis

theorem grown_ofGiven (id : ResourceId) (given : List (String × List String)) :
    (ofGiven id given).Grown := by
  induction given using List.reverseRecOn with
  | nil => exact .new id
  | append_singleton front last inductionHypothesis =>
      rw [ofGiven_append]
      exact inductionHypothesis.withProperty last.1 last.2

/-- There is one property for each name, in the order in which the names first
come. -/
theorem names_ofGiven (id : ResourceId) (given : List (String × List String)) :
    (ofGiven id given).properties.map Property.name = (given.map Prod.fst).eraseDups := by
  induction given using List.reverseRecOn with
  | nil => rfl
  | append_singleton front last inductionHypothesis =>
      rw [ofGiven_append, withProperty, names_mergeProperty, inductionHypothesis, List.map_append,
        List.map_singleton, List.eraseDups_append]
      by_cases known : last.1 ∈ front.map Prod.fst
      · rw [if_pos (List.mem_eraseDups.mpr known)]
        simp [List.removeAll, known]
      · rw [if_neg (fun member => known (List.mem_eraseDups.mp member))]
        simp [List.removeAll, known, List.eraseDups_cons]

theorem listsOf_append (given : List (String × List String)) (entry : String × List String)
    (name : String) :
    listsOf (given ++ [entry]) name =
      listsOf given name ++ if entry.1 = name then [entry.2] else [] := by
  unfold listsOf
  rw [List.filter_append, List.map_append]
  by_cases same : entry.1 = name
  · simp [same]
  · simp [same]

theorem listsOf_ne_nil_iff : listsOf given name ≠ [] ↔ name ∈ given.map Prod.fst := by
  simp [listsOf]

theorem toList_addValues_flatten (first : List String) (others : List (List String)) :
    (addValues first.toArray others.flatten).toList = gathered (first :: others) :=
  toList_addValues first.toArray others.flatten

/-- A property keeps what is gathered from its lists. -/
theorem valuesOf_ofGiven (id : ResourceId) (given : List (String × List String)) (name : String) :
    valuesOf (ofGiven id given).properties name = (gathered (listsOf given name)).toArray := by
  induction given using List.reverseRecOn with
  | nil => rfl
  | append_singleton front last inductionHypothesis =>
      rw [ofGiven_append, withProperty, valuesOf_mergeProperty, names_ofGiven, listsOf_append]
      by_cases same : name = last.1
      · subst same
        rw [if_pos rfl, if_pos rfl, inductionHypothesis]
        cases before : listsOf front last.1 with
        | nil =>
            have new : last.1 ∉ (front.map Prod.fst).eraseDups := by
              rw [List.mem_eraseDups, ← listsOf_ne_nil_iff, before]
              exact fun some => some rfl
            rw [if_neg new]
            simp [gathered]
        | cons first others =>
            have known : last.1 ∈ (front.map Prod.fst).eraseDups := by
              rw [List.mem_eraseDups, ← listsOf_ne_nil_iff, before]
              exact List.cons_ne_nil first others
            rw [if_pos known, ← toList_addValues_flatten, Array.toArray_toList, ← addValues_append,
              List.cons_append, ← toList_addValues_flatten, Array.toArray_toList,
              List.flatten_append, List.flatten_singleton]
      · rw [if_neg same, if_neg (Ne.symm same), List.append_nil, inductionHypothesis]

theorem nodup_names_ofGiven (id : ResourceId) (given : List (String × List String)) :
    ((ofGiven id given).properties.map Property.name).Nodup :=
  (grown_ofGiven id given).nodup

theorem values_ofGiven {property : Property} (member : property ∈ (ofGiven id given).properties) :
    property.values.toList = gathered (listsOf given property.name) := by
  rw [← valuesOf_name (nodup_names_ofGiven id given) member, valuesOf_ofGiven]

theorem exists_property_ofGiven_iff :
    (∃ property ∈ (ofGiven id given).properties, property.name = name) ↔
      name ∈ given.map Prod.fst := by
  rw [← List.mem_eraseDups, ← names_ofGiven id given, List.mem_map]

/-! ## Lists without repetitions -/

theorem nodup_eraseDups (values : List String) : values.eraseDups.Nodup := by
  have added := toList_addValues #[] values
  rw [List.nil_append, List.removeAll_nil] at added
  rw [← added]
  exact nodup_addValues List.nodup_nil

theorem eraseDups_eq_self_iff {values : List String} : values.eraseDups = values ↔ values.Nodup := by
  constructor
  · intro same
    rw [← same]
    exact nodup_eraseDups values
  · intro distinct
    induction values with
    | nil => rfl
    | cons first rest inductionHypothesis =>
        obtain ⟨new, distinctRest⟩ := List.nodup_cons.mp distinct
        have kept : rest.filter (fun value => !value == first) = rest := by
          rw [List.filter_eq_self]
          intro value member
          simp [ne_of_mem_of_not_mem member new]
        rw [List.eraseDups_cons, kept, inductionHypothesis distinctRest]

/-- What is gathered has no value twice if the first list has none. -/
theorem nodup_gathered_iff (first : List String) (others : List (List String)) :
    (gathered (first :: others)).Nodup ↔ first.Nodup := by
  constructor
  · exact fun distinct => distinct.sublist (List.sublist_append_left _ _)
  · intro distinct
    rw [← toList_addValues_flatten]
    exact nodup_addValues distinct

/-- What is gathered are the values of all lists if the first list has no value
twice. -/
theorem gathered_eq_iff (first : List String) (others : List (List String)) :
    gathered (first :: others) = (first :: others).flatten.eraseDups ↔ first.Nodup := by
  rw [gathered, List.flatten_cons, List.eraseDups_append, List.append_left_inj, eq_comm,
    eraseDups_eq_self_iff]

/-- What holds of the values of all properties is what holds of what is gathered
for all names. -/
theorem forall_values_iff (Holds : List (List String) → List String → Prop) :
    (∀ property ∈ (ofGiven id given).properties,
        Holds (listsOf given property.name) property.values.toList) ↔
      ∀ name ∈ given.map Prod.fst, Holds (listsOf given name) (gathered (listsOf given name)) := by
  constructor
  · intro holds name known
    obtain ⟨property, member, rfl⟩ : ∃ property ∈ (ofGiven id given).properties,
        property.name = name := exists_property_ofGiven_iff.mpr known
    rw [← values_ofGiven member]
    exact holds property member
  · intro holds property member
    rw [values_ofGiven member]
    exact holds property.name (exists_property_ofGiven_iff.mp ⟨property, member, rfl⟩)

/-- What holds of gathered values if the first list has no value twice holds of all
properties if no first list has a value twice. -/
theorem firstsDistinct_iff (Holds : List (List String) → List String → Prop)
    (decided : ∀ first others,
      Holds (first :: others) (gathered (first :: others)) ↔ first.Nodup) :
    (∀ property ∈ (ofGiven id given).properties,
        Holds (listsOf given property.name) property.values.toList) ↔ FirstsDistinct given := by
  rw [forall_values_iff, FirstsDistinct]
  refine forall₂_congr fun name known => ?_
  obtain ⟨first, others, lists⟩ := List.exists_cons_of_ne_nil (listsOf_ne_nil_iff.mpr known)
  rw [lists, decided]
  simp

end Given

end BlockDef

namespace Registry

/-! ## States with the same values -/

/-- Whether any two states of a block differ in the value of some property. -/
def ToldApart (registry : Registry) (handle : BlockHandle) : Prop :=
  ∀ state ∈ registry.statesOf handle, ∀ other ∈ registry.statesOf handle, state ≠ other →
    ∃ name, registry.value? state name ≠ registry.value? other name

/-- The first values of all properties are a choice. -/
theorem chooses_first {properties : List Property}
    (filled : ∀ property ∈ properties, property.values.isEmpty = false) :
    Chooses properties (properties.map (fun _ => 0)) := by
  unfold Chooses
  rw [List.forall₂_map_right_iff, List.forall₂_same]
  intro property member
  have some : property.values ≠ #[] := by
    rw [← Array.isEmpty_eq_false_iff]
    exact filled property member
  exact Array.size_pos_iff.mpr some

section Block

variable {definitions : List BlockDef} {registry : Registry} {handle : BlockHandle}
  {entry : BlockEntry}

/-- Where a value is twice among those of a property, the two positions make two
states with the same values. -/
theorem Enumerated.exists_twins (enumerated : Enumerated definitions registry)
    (few : ∀ property ∈ entry.definition.properties, property.values.size ≤ positionLimit)
    (owner : registry.blocks[handle]? = some entry) {index : Nat} {property : Property}
    (held : entry.definition.properties[index]? = some property) {position position' : Nat}
    (before : position < position') (below : position' < property.values.size)
    (repeated : property.values[position]? = property.values[position']?) :
    ∃ state ∈ registry.statesOf handle, ∃ other ∈ registry.statesOf handle, state ≠ other ∧
      ∀ name, registry.value? state name = registry.value? other name := by
  have start := chooses_first (enumerated.filled owner)
  have chosen := start.set held (Nat.lt_trans before below)
  have chosen' := start.set held below
  obtain ⟨state, located⟩ := enumerated.exists_state few owner chosen
  obtain ⟨other, located'⟩ := enumerated.exists_state few owner chosen'
  refine ⟨state, (enumerated.mem_statesOf_iff owner).mpr ⟨_, located⟩, other,
    (enumerated.mem_statesOf_iff owner).mpr ⟨_, located'⟩, ?_, ?_⟩
  · rintro rfl
    have inside : index < (entry.definition.properties.map (fun _ => 0)).length := by
      rw [List.length_map]
      exact (List.getElem?_eq_some_iff.mp held).1
    have same := congrArg (fun choice => choice[index]?) (located.unique located').2.2
    simp only [List.getElem?_set_self inside, Option.some.injEq] at same
    exact Nat.ne_of_lt before same
  · intro name
    cases isIndex : entry.definition.propertyIndex? name with
    | none => simp [located.value?_eq, located'.value?_eq, chosen?, isIndex]
    | some place =>
        rw [located.value?_eq_valueAt? isIndex, located'.value?_eq_valueAt? isIndex,
          located.valueAt?_eq, located'.valueAt?_eq]
        by_cases here : place = index
        · rw [here, start.given?_set_self held, start.given?_set_self held, repeated]
        · rw [given?_set_of_ne here, given?_set_of_ne here]

/-- Any two states of a block differ in a value if and only if no property has a
value twice. -/
theorem Enumerated.toldApart_iff (enumerated : Enumerated definitions registry)
    (few : ∀ property ∈ entry.definition.properties, property.values.size ≤ positionLimit)
    (owner : registry.blocks[handle]? = some entry)
    (apart : (entry.definition.properties.map Property.name).Nodup) :
    ToldApart registry handle ↔
      ∀ property ∈ entry.definition.properties, property.values.toList.Nodup := by
  constructor
  · intro told property member
    obtain ⟨index, held⟩ := List.mem_iff_getElem?.mp member
    rw [List.nodup_iff_getElem?_ne_getElem?]
    intro position position' before below repeated
    rw [Array.getElem?_toList, Array.getElem?_toList] at repeated
    obtain ⟨state, isState, other, isOther, different, same⟩ :=
      enumerated.exists_twins few owner held before below repeated
    obtain ⟨name, differs⟩ := told state isState other isOther different
    exact differs (same name)
  · intro distinct state isState other isOther different
    obtain ⟨choice, located⟩ := (enumerated.mem_statesOf_iff owner).mp isState
    obtain ⟨choice', located'⟩ := (enumerated.mem_statesOf_iff owner).mp isOther
    by_contra alike
    rw [not_exists_not] at alike
    exact different (enumerated.eq_of_values_eq few apart distinct located located'
      (fun property _ => alike property.name))

end Block

/-- The states of the first definition of an id differ in their values if and only
if no property of the definition has a value twice. -/
theorem toldApart_ofDefinitions_iff {definitions : List BlockDef} {definition : BlockDef}
    (isFirst : definitions.find? (fun other => other.id == definition.id) = some definition)
    (apart : (definition.properties.map Property.name).Nodup)
    (few : ∀ property ∈ definition.properties, property.values.size ≤ positionLimit) :
    ∃ handle, (ofDefinitions definitions).1.blockOfId? definition.id = some handle ∧
      (ToldApart (ofDefinitions definitions).1 handle ↔
        ∀ property ∈ definition.properties, property.values.toList.Nodup) := by
  have enumerated := enumerated_ofDefinitions definitions
  have registered : (ofDefinitions definitions).1.definition? definition.id =
      some (arrange definition) := by
    rw [definition?_ofDefinitions, isFirst, Option.map_some]
  obtain ⟨handle, entry, owner, same, named⟩ :=
    enumerated.definition?_eq_some_iff.mp registered
  refine ⟨handle, (enumerated.named _ _).mpr ⟨entry, owner, same ▸ named⟩, ?_⟩
  have fewHere : ∀ property ∈ entry.definition.properties,
      property.values.size ≤ positionLimit := by
    intro property member
    rw [same] at member
    exact few property (mem_arrange_iff.mp member).1
  rw [enumerated.toldApart_iff fewHere owner (same ▸ nodup_arrange apart), same]
  constructor
  · intro distinct property member
    by_cases empty : property.values.isEmpty = true
    · rw [Array.isEmpty_iff.mp empty]
      exact List.nodup_nil
    · exact distinct property (mem_arrange_iff.mpr ⟨member, Bool.eq_false_iff.mpr empty⟩)
  · intro distinct property member
    exact distinct property (mem_arrange_iff.mp member).1

end Registry

namespace BlockDef

/-! ## A definition and its block -/

/-- A definition that is made by adding lists of values has one property for each
name, in the order in which the names first come, with what is gathered from the
lists of the name. No property has a value twice, and each has exactly the values
of all its lists, if and only if the first list of each name has no value twice. In
the same case any two states of its block in a registry differ in some value. -/
theorem ofGiven_exact (id : ResourceId) (given : List (String × List String)) :
    let block := ofGiven id given
    (block.properties.map Property.name).Nodup ∧
    block.properties.map Property.name = (given.map Prod.fst).eraseDups ∧
    (∀ property ∈ block.properties,
      property.values.toList = gathered (listsOf given property.name)) ∧
    ((∀ property ∈ block.properties, property.values.toList.Nodup) ↔ FirstsDistinct given) ∧
    ((∀ property ∈ block.properties,
        property.values.toList = (listsOf given property.name).flatten.eraseDups) ↔
      FirstsDistinct given) ∧
    ∀ definitions : List BlockDef,
      definitions.find? (fun definition => definition.id == id) = some block →
      (∀ property ∈ block.properties, property.values.size ≤ Registry.positionLimit) →
      ∃ handle, (Registry.ofDefinitions definitions).1.blockOfId? id = some handle ∧
        (Registry.ToldApart (Registry.ofDefinitions definitions).1 handle ↔
          FirstsDistinct given) := by
  intro block
  have distinct_iff :
      (∀ property ∈ block.properties, property.values.toList.Nodup) ↔ FirstsDistinct given :=
    firstsDistinct_iff (fun _ values => values.Nodup) nodup_gathered_iff
  have all_iff : (∀ property ∈ block.properties,
      property.values.toList = (listsOf given property.name).flatten.eraseDups) ↔
        FirstsDistinct given :=
    firstsDistinct_iff (fun lists values => values = lists.flatten.eraseDups) gathered_eq_iff
  refine ⟨nodup_names_ofGiven id given, names_ofGiven id given, fun _ => values_ofGiven,
    distinct_iff, all_iff, ?registered⟩
  case registered =>
    intro definitions isFirst few
    have named : block.id = id := id_ofGiven id given
    rw [← named] at isFirst ⊢
    rw [← distinct_iff]
    exact Registry.toldApart_ofDefinitions_iff isFirst (nodup_names_ofGiven id given) few

/-- A lamp to which a list without values and a second list with a known value are
given. -/
theorem ofGiven_exact_lamp :
    let given := [("lit", ["off", "on"]), ("power", []), ("lit", ["on", "dim"])]
    let lamp := ofGiven ⟨"minecraft", "lamp"⟩ given
    FirstsDistinct given ∧
    [lamp].find? (fun definition => definition.id == ⟨"minecraft", "lamp"⟩) = some lamp ∧
    (∀ property ∈ lamp.properties, property.values.size ≤ Registry.positionLimit) ∧
    ∃ handle, (Registry.ofDefinitions [lamp]).1.blockOfId? ⟨"minecraft", "lamp"⟩ = some handle ∧
      Registry.ToldApart (Registry.ofDefinitions [lamp]).1 handle := by
  intro given lamp
  have firsts : FirstsDistinct given := by decide
  have isFirst : [lamp].find? (fun definition => definition.id == ⟨"minecraft", "lamp"⟩) =
      some lamp := rfl
  have few : ∀ property ∈ lamp.properties, property.values.size ≤ Registry.positionLimit := by
    decide +kernel
  obtain ⟨_, _, _, _, _, registered⟩ := ofGiven_exact ⟨"minecraft", "lamp"⟩ given
  obtain ⟨handle, owns, told_iff⟩ := registered [lamp] isFirst few
  exact ⟨firsts, isFirst, few, handle, owns, told_iff.mpr firsts⟩

/-- A first list with a value twice is kept as it is, and the block has two states
with the same value and one name, of which the second one is never asked for. -/
theorem ofGiven_repeats :
    let lamp := ofGiven ⟨"minecraft", "lamp"⟩ [("lit", ["on", "on"])]
    let registry := (Registry.ofDefinitions [lamp]).1
    lamp.properties = [⟨"lit", #["on", "on"]⟩] ∧
    registry.blockOfId? ⟨"minecraft", "lamp"⟩ = some 0 ∧ registry.statesOf 0 = [0, 1] ∧
    (∀ property ∈ lamp.properties,
      registry.value? 0 property.name = registry.value? 1 property.name) ∧
    registry.stateId? 0 = registry.stateId? 1 ∧ registry.withValue? 1 "lit" "on" = some 0 := by
  intro lamp registry
  have arranged : ∀ definition ∈ [lamp], Registry.Arranged definition := by decide
  unfold registry
  rw [Registry.ofDefinitions_of_arranged arranged]
  decide +kernel

end BlockDef

end PackModels
