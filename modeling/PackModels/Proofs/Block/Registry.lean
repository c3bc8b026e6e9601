import Mathlib.Data.List.Forall2
import Mathlib.Data.List.Induction
import Mathlib.Data.List.Nodup
import PackModels.Pack.Blocks

/-!
Contract: what a registry holds of the definitions that it is made of.

A definition that is grown step by step, as those of a pack are, has no property
twice. Each block of a registry is an arranged definition, and the states of the
registry are exactly the choices of its blocks, one after another: the block and
the choice of a state say where the state is, and no state is missing.

Owns: `Enumerated`, which one more definition keeps, and `Arranged`, the
definitions that a registry takes as they are.
-/

namespace PackModels

namespace BlockDef

/-- Definitions as they are made: a new one, and what a step makes of one. -/
inductive Grown : BlockDef → Prop where
  | new (id : ResourceId) : Grown (.new id)
  | withProperty {block : BlockDef} (grown : Grown block) (name : String)
      (values : List String) : Grown (block.withProperty name values)
  | makeInvisible {block : BlockDef} (grown : Grown block) : Grown block.makeInvisible
  | makeFluid {block : BlockDef} (grown : Grown block) (kind : FluidKind) :
      Grown (block.makeFluid kind)

/-- A property is merged into the one of its name, or comes last. -/
theorem names_mergeProperty (name : String) (values : List String) (properties : List Property) :
    (mergeProperty name values properties).map Property.name =
      if name ∈ properties.map Property.name then properties.map Property.name
      else properties.map Property.name ++ [name] := by
  induction properties with
  | nil => rfl
  | cons property rest inductionHypothesis =>
      rw [mergeProperty, List.map_cons]
      by_cases same : property.name = name
      · rw [if_pos same, List.map_cons, if_pos (same ▸ List.mem_cons_self)]
      · rw [if_neg same, List.map_cons, inductionHypothesis]
        by_cases known : name ∈ rest.map Property.name
        · rw [if_pos known, if_pos (List.mem_cons_of_mem _ known)]
        · have unknown : name ∉ property.name :: rest.map Property.name := by
            intro member
            rcases List.mem_cons.mp member with first | later
            · exact same first.symm
            · exact known later
          rw [if_neg known, if_neg unknown, List.cons_append]

/-- No two properties of a grown definition have one name. -/
theorem Grown.nodup {block : BlockDef} (grown : Grown block) :
    (block.properties.map Property.name).Nodup := by
  induction grown with
  | new id => exact List.nodup_nil
  | makeInvisible _ inductionHypothesis => exact inductionHypothesis
  | makeFluid _ _ inductionHypothesis => exact inductionHypothesis
  | withProperty _ name values inductionHypothesis =>
      rw [BlockDef.withProperty, names_mergeProperty]
      split
      · exact inductionHypothesis
      · rename_i unknown
        exact List.nodup_append.mpr ⟨inductionHypothesis, List.nodup_singleton name,
          fun left member right last same =>
            unknown (List.mem_singleton.mp last ▸ same ▸ member)⟩

/-- A property is found exactly if the block has one of its name. -/
theorem isSome_propertyIndex?_iff {block : BlockDef} {name : String} :
    (block.propertyIndex? name).isSome = true ↔
      ∃ property ∈ block.properties, property.name = name := by
  unfold propertyIndex?
  simp [List.findIdx?_isSome]

end BlockDef

namespace Registry

/-! ## Choices -/

/-- Whether a choice has a position of each property's values. -/
def Chooses (properties : List Property) (choice : List Nat) : Prop :=
  List.Forall₂ (fun (property : Property) position => position < property.values.size)
    properties choice

/-- Positions below the limit are stored as they are. -/
theorem choices_cons {property : Property} (few : property.values.size ≤ positionLimit)
    (rest : List Property) :
    choices (property :: rest) = (List.range property.values.size).flatMap
      (fun position => (choices rest).map (fun choice => position :: choice)) := by
  rw [choices]
  apply List.flatMap_congr
  intro position member
  have below := List.mem_range.mp member
  rw [Nat.mod_eq_of_lt (Nat.lt_of_lt_of_le below few)]

theorem mem_choices_iff {properties : List Property}
    (few : ∀ property ∈ properties, property.values.size ≤ positionLimit) (choice : List Nat) :
    choice ∈ choices properties ↔ Chooses properties choice := by
  induction properties generalizing choice with
  | nil => rw [choices, List.mem_singleton, Chooses, List.forall₂_nil_left_iff]
  | cons property rest inductionHypothesis =>
      have fewRest : ∀ other ∈ rest, other.values.size ≤ positionLimit :=
        fun other member => few other (List.mem_cons_of_mem _ member)
      rw [choices_cons (few property List.mem_cons_self), Chooses, List.forall₂_cons_left_iff]
      simp only [List.mem_flatMap, List.mem_range, List.mem_map, inductionHypothesis fewRest]
      constructor
      · rintro ⟨position, below, following, chosen, rfl⟩
        exact ⟨position, following, below, chosen, rfl⟩
      · rintro ⟨position, following, below, chosen, rfl⟩
        exact ⟨position, below, following, chosen, rfl⟩

theorem nodup_choices {properties : List Property}
    (few : ∀ property ∈ properties, property.values.size ≤ positionLimit) :
    (choices properties).Nodup := by
  induction properties with
  | nil => exact List.nodup_singleton []
  | cons property rest inductionHypothesis =>
      have distinct := inductionHypothesis
        (fun other member => few other (List.mem_cons_of_mem _ member))
      rw [choices_cons (few property List.mem_cons_self), List.nodup_flatMap]
      constructor
      · intro position _
        exact distinct.map (fun left right same => (List.cons.inj same).2)
      · -- Choices that differ in their first position are different.
        refine List.nodup_range.imp ?_
        intro left right different choice inLeft inRight
        obtain ⟨_, _, rfl⟩ := List.mem_map.mp inLeft
        obtain ⟨_, _, same⟩ := List.mem_map.mp inRight
        exact different (List.cons.inj same).1.symm

/-! ## Arranged definitions -/

theorem mem_arrange_iff {definition : BlockDef} {property : Property} :
    property ∈ (arrange definition).properties ↔
      property ∈ definition.properties ∧ property.values.isEmpty = false := by
  rw [arrange, (List.mergeSort_perm _ _).mem_iff, List.mem_filter, Bool.not_eq_true']

theorem nodup_arrange {definition : BlockDef}
    (distinct : (definition.properties.map Property.name).Nodup) :
    ((arrange definition).properties.map Property.name).Nodup := by
  rw [arrange, ((List.mergeSort_perm _ _).map Property.name).nodup_iff]
  exact distinct.sublist (List.filter_sublist.map Property.name)

/-- Whether the properties of a definition have values and are in order, so
that nothing is left to arrange. -/
def Arranged (definition : BlockDef) : Prop :=
  (∀ property ∈ definition.properties, property.values.isEmpty = false) ∧
    definition.properties.Pairwise (fun left right => propertyOrder left right = true)

instance (definition : BlockDef) : Decidable (Arranged definition) :=
  inferInstanceAs (Decidable (_ ∧ _))

theorem arrange_of_arranged {definition : BlockDef} (arranged : Arranged definition) :
    arrange definition = definition := by
  have kept : definition.properties.filter (fun property => !property.values.isEmpty) =
      definition.properties := by
    rw [List.filter_eq_self]
    intro property member
    rw [arranged.1 property member, Bool.not_false]
  rw [arrange, kept, List.mergeSort_of_pairwise arranged.2]

/-- Adds a block as it is. -/
def place (registry : Registry) (block : BlockDef) : Registry :=
  let handle := registry.blocks.size
  let added := (choices block.properties).map
    (fun choice => BlockState.mk handle choice (fluidOf block choice))
  ⟨registry.blocks.push ⟨block, registry.states.size, added.length⟩,
    registry.states ++ added.toArray,
    registry.byId.insert block.id handle⟩

/-- Registers one block as it is. -/
def stepPlace (built : Registry × List Warning) (definition : BlockDef) :
    Registry × List Warning :=
  if built.1.byId.contains definition.id then
    (built.1, built.2 ++ [.duplicateBlock definition.id])
  else
    (built.1.place definition, built.2)

/-- A registry of arranged definitions is made without sorting, so it can be
evaluated. -/
theorem ofDefinitions_of_arranged {definitions : List BlockDef}
    (arranged : ∀ definition ∈ definitions, Arranged definition) :
    ofDefinitions definitions = definitions.foldl stepPlace (empty, []) := by
  apply List.foldl_ext
  intro built definition listed
  have added : built.1.add definition = built.1.place definition := by
    rw [add, arrange_of_arranged (arranged definition listed), place]
  rw [step, stepPlace, added]

/-! ## The states of a registry -/

/-- What holds of a registry of some of these definitions. -/
structure Enumerated (definitions : List BlockDef) (registry : Registry) : Prop where
  arranged : ∀ (handle : BlockHandle) (entry : BlockEntry),
    registry.blocks[handle]? = some entry →
      ∃ definition ∈ definitions, entry.definition = arrange definition
  counted : ∀ (handle : BlockHandle) (entry : BlockEntry),
    registry.blocks[handle]? = some entry →
      entry.stateCount = (choices entry.definition.properties).length
  placed : ∀ (state : StateHandle) (found : BlockState),
    registry.states[state]? = some found ↔
      ∃ entry position, registry.blocks[found.block]? = some entry ∧
        state = entry.firstState + position ∧
        (choices entry.definition.properties)[position]? = some found.choice ∧
        found.fluid = fluidOf entry.definition found.choice
  named : ∀ (id : ResourceId) (handle : BlockHandle), registry.byId[id]? = some handle ↔
    ∃ entry, registry.blocks[handle]? = some entry ∧ entry.definition.id = id

namespace Enumerated

variable {definitions : List BlockDef} {registry : Registry}

/-- Definitions that were not used do not count. -/
theorem mono (enumerated : Enumerated definitions registry) {more : List BlockDef}
    (subset : definitions ⊆ more) : Enumerated more registry where
  arranged := by
    intro handle entry held
    obtain ⟨definition, listed, same⟩ := enumerated.arranged handle entry held
    exact ⟨definition, subset listed, same⟩
  counted := enumerated.counted
  placed := enumerated.placed
  named := enumerated.named

theorem empty (definitions : List BlockDef) : Enumerated definitions Registry.empty where
  arranged := by
    intro handle entry held
    cases held
  counted := by
    intro handle entry held
    cases held
  placed := by
    intro state found
    constructor
    · intro held
      cases held
    · rintro ⟨entry, position, held, _⟩
      cases held
  named := by
    intro id handle
    constructor
    · intro held
      simp [Registry.empty] at held
    · rintro ⟨entry, held, _⟩
      cases held

/-- One more block comes after the others. -/
theorem getElem?_blocks_add {definition : BlockDef} {handle : BlockHandle} {entry : BlockEntry} :
    (registry.add definition).blocks[handle]? = some entry ↔
      registry.blocks[handle]? = some entry ∨
        (handle = registry.blocks.size ∧
          entry = ⟨arrange definition, registry.states.size,
            (choices (arrange definition).properties).length⟩) := by
  unfold add
  dsimp only
  rw [Array.getElem?_push, List.length_map]
  by_cases last : handle = registry.blocks.size
  · rw [if_pos last, last, Array.getElem?_eq_none (Nat.le_refl _)]
    simp [eq_comm]
  · rw [if_neg last]
    simp [last]

/-- The states of one more block come after the others. -/
theorem getElem?_states_add {definition : BlockDef} {state : StateHandle} {found : BlockState} :
    (registry.add definition).states[state]? = some found ↔
      registry.states[state]? = some found ∨
        ∃ position, state = registry.states.size + position ∧
          (choices (arrange definition).properties)[position]? = some found.choice ∧
          found.block = registry.blocks.size ∧
          found.fluid = fluidOf (arrange definition) found.choice := by
  unfold add
  dsimp only
  rw [Array.getElem?_append]
  by_cases early : state < registry.states.size
  · rw [if_pos early]
    refine (or_iff_left ?_).symm
    rintro ⟨position, late, _⟩
    exact absurd early (by rw [late]; exact Nat.not_lt.mpr (Nat.le_add_right _ _))
  · rw [if_neg early, Array.getElem?_eq_none (Nat.not_lt.mp early), List.getElem?_toArray,
      List.getElem?_map, Option.map_eq_some_iff]
    constructor
    · rintro ⟨choice, chosen, rfl⟩
      exact .inr ⟨state - registry.states.size, (Nat.add_sub_of_le (Nat.not_lt.mp early)).symm,
        chosen, rfl, rfl⟩
    · rintro (held | ⟨position, rfl, chosen, block, fluid⟩)
      · cases held
      · rw [Nat.add_sub_cancel_left]
        exact ⟨found.choice, chosen, by rw [← block, ← fluid]⟩

/-- A definition of a new id can be added. -/
theorem add (enumerated : Enumerated definitions registry) {definition : BlockDef}
    (listed : definition ∈ definitions) (fresh : registry.byId[definition.id]? = none) :
    Enumerated definitions (registry.add definition) where
  arranged := by
    intro handle entry held
    rcases getElem?_blocks_add.mp held with before | ⟨_, rfl⟩
    · exact enumerated.arranged handle entry before
    · exact ⟨definition, listed, rfl⟩
  counted := by
    intro handle entry held
    rcases getElem?_blocks_add.mp held with before | ⟨_, rfl⟩
    · exact enumerated.counted handle entry before
    · rfl
  placed := by
    intro state found
    rw [getElem?_states_add, enumerated.placed]
    constructor
    · rintro (⟨entry, position, held, rest⟩ | ⟨position, place, chosen, block, fluid⟩)
      · exact ⟨entry, position, getElem?_blocks_add.mpr (.inl held), rest⟩
      · exact ⟨_, position, getElem?_blocks_add.mpr (.inr ⟨block, rfl⟩), place, chosen, fluid⟩
    · rintro ⟨entry, position, held, place, chosen, fluid⟩
      rcases getElem?_blocks_add.mp held with before | ⟨block, rfl⟩
      · exact .inl ⟨entry, position, before, place, chosen, fluid⟩
      · exact .inr ⟨position, place, chosen, block, fluid⟩
  named := by
    intro id handle
    have newest : (registry.add definition).byId =
        registry.byId.insert definition.id registry.blocks.size := rfl
    rw [newest]
    constructor
    · intro held
      by_cases same : id = definition.id
      · rw [same, Std.ExtTreeMap.getElem?_insert_self, Option.some.injEq] at held
        exact ⟨_, getElem?_blocks_add.mpr (.inr ⟨held.symm, rfl⟩), same.symm⟩
      · rw [Table.getElem?_insert_of_ne same] at held
        obtain ⟨entry, before, named⟩ := (enumerated.named id handle).mp held
        exact ⟨entry, getElem?_blocks_add.mpr (.inl before), named⟩
    · rintro ⟨entry, held, rfl⟩
      rcases getElem?_blocks_add.mp held with before | ⟨rfl, rfl⟩
      · have known := (enumerated.named _ _).mpr ⟨entry, before, rfl⟩
        have different : entry.definition.id ≠ definition.id := by
          intro same
          rw [same, fresh] at known
          cases known
        rw [Table.getElem?_insert_of_ne different]
        exact known
      · exact Std.ExtTreeMap.getElem?_insert_self

/-- Every property of a block has a value. -/
theorem filled (enumerated : Enumerated definitions registry) {handle : BlockHandle}
    {entry : BlockEntry} (owner : registry.blocks[handle]? = some entry) :
    ∀ property ∈ entry.definition.properties, property.values.isEmpty = false := by
  obtain ⟨definition, _, same⟩ := enumerated.arranged handle entry owner
  intro property member
  rw [same] at member
  exact (mem_arrange_iff.mp member).2

end Enumerated

/-- A registry of definitions holds their blocks and all of their states. -/
theorem enumerated_ofDefinitions (definitions : List BlockDef) :
    Enumerated definitions (ofDefinitions definitions).1 := by
  suffices run : ∀ (rest : List BlockDef) (built : Registry × List Warning),
      (∀ definition ∈ rest, definition ∈ definitions) → Enumerated definitions built.1 →
        Enumerated definitions (rest.foldl step built).1 from
    run definitions _ (fun _ member => member) (Enumerated.empty definitions)
  intro rest
  induction rest with
  | nil => exact fun _ _ enumerated => enumerated
  | cons definition rest inductionHypothesis =>
      intro built listed enumerated
      rw [List.foldl_cons]
      apply inductionHypothesis _ (fun other member => listed other (List.mem_cons_of_mem _ member))
      unfold step
      by_cases known : built.1.byId.contains definition.id = true
      · rw [if_pos known]
        exact enumerated
      · have fresh : built.1.byId[definition.id]? = none :=
          Std.ExtTreeMap.getElem?_eq_none
            (fun member => known (Std.ExtTreeMap.contains_iff_mem.mpr member))
        rw [if_neg known]
        exact enumerated.add (listed definition List.mem_cons_self) fresh

/-- What holds of the properties of all definitions holds of those of all blocks. -/
theorem properties_ofDefinitions {Holds : Property → Prop} {definitions : List BlockDef}
    (holds : ∀ definition ∈ definitions, ∀ property ∈ definition.properties, Holds property) :
    ∀ entry ∈ (ofDefinitions definitions).1.blocks, ∀ property ∈ entry.definition.properties,
      Holds property := by
  intro entry held property member
  obtain ⟨handle, owner⟩ := Array.mem_iff_getElem?.mp held
  obtain ⟨definition, listed, same⟩ :=
    (enumerated_ofDefinitions definitions).arranged handle entry owner
  rw [same] at member
  exact holds definition listed property (mem_arrange_iff.mp member).1

/-! ## The first definition of an id -/

/-- The ids of the blocks of a registry, in order. -/
def ids (registry : Registry) : List ResourceId :=
  registry.blocks.toList.map (fun entry => entry.definition.id)

/-- The block of an id, if one is registered. -/
def definition? (registry : Registry) (id : ResourceId) : Option BlockDef :=
  (registry.blockOfId? id).bind (fun handle => registry.blocks[handle]?.map BlockEntry.definition)

namespace Enumerated

variable {definitions : List BlockDef} {registry : Registry}

theorem definition?_eq_some_iff (enumerated : Enumerated definitions registry) {id : ResourceId}
    {block : BlockDef} :
    registry.definition? id = some block ↔
      ∃ (handle : BlockHandle) (entry : BlockEntry), registry.blocks[handle]? = some entry ∧
        entry.definition = block ∧ block.id = id := by
  unfold definition? blockOfId?
  rw [Option.bind_eq_some_iff]
  constructor
  · rintro ⟨handle, owns, found⟩
    obtain ⟨entry, owner, named⟩ := (enumerated.named id handle).mp owns
    rw [owner, Option.map_some, Option.some.injEq] at found
    exact ⟨handle, entry, owner, found, found ▸ named⟩
  · rintro ⟨handle, entry, owner, rfl, named⟩
    refine ⟨handle, (enumerated.named id handle).mpr ⟨entry, owner, named⟩, ?_⟩
    rw [owner, Option.map_some]

theorem isSome_definition? (enumerated : Enumerated definitions registry) (id : ResourceId) :
    (registry.definition? id).isSome = (registry.byId[id]?).isSome := by
  unfold definition? blockOfId?
  cases owns : registry.byId[id]? with
  | none => rfl
  | some handle =>
      obtain ⟨entry, owner, _⟩ := (enumerated.named id handle).mp owns
      rw [Option.bind_some, owner]
      rfl

theorem mem_ids_iff (enumerated : Enumerated definitions registry) (id : ResourceId) :
    id ∈ registry.ids ↔ (registry.definition? id).isSome = true := by
  unfold ids
  rw [List.mem_map, Option.isSome_iff_exists]
  constructor
  · rintro ⟨entry, member, named⟩
    obtain ⟨handle, owner⟩ := Array.mem_iff_getElem?.mp (Array.mem_toList_iff.mp member)
    exact ⟨_, enumerated.definition?_eq_some_iff.mpr ⟨handle, entry, owner, rfl, named⟩⟩
  · rintro ⟨block, found⟩
    obtain ⟨handle, entry, owner, rfl, named⟩ := enumerated.definition?_eq_some_iff.mp found
    exact ⟨entry, Array.mem_toList_iff.mpr (Array.mem_of_getElem? owner), named⟩

/-- One more block is found under its own id. -/
theorem definition?_add (enumerated : Enumerated definitions registry) {definition : BlockDef}
    (listed : definition ∈ definitions) (fresh : registry.byId[definition.id]? = none)
    (id : ResourceId) :
    (registry.add definition).definition? id =
      (registry.definition? id).or
        (if definition.id = id then some (arrange definition) else none) := by
  have added := enumerated.add listed fresh
  by_cases same : definition.id = id
  · have unknown := enumerated.isSome_definition? id
    rw [← same, fresh, Option.isSome_none, Option.isSome_eq_false_iff,
      Option.isNone_iff_eq_none] at unknown
    rw [← same, unknown, Option.none_or, if_pos rfl, added.definition?_eq_some_iff]
    exact ⟨_, _, getElem?_blocks_add.mpr (.inr ⟨rfl, rfl⟩), rfl, rfl⟩
  · rw [if_neg same, Option.or_none]
    apply Option.ext
    intro block
    rw [added.definition?_eq_some_iff, enumerated.definition?_eq_some_iff]
    constructor
    · rintro ⟨handle, entry, held, rfl, named⟩
      rcases getElem?_blocks_add.mp held with before | ⟨_, rfl⟩
      · exact ⟨handle, entry, before, rfl, named⟩
      · exact absurd named same
    · rintro ⟨handle, entry, before, rfl, named⟩
      exact ⟨handle, entry, getElem?_blocks_add.mpr (.inl before), rfl, named⟩

end Enumerated

/-- Of the definitions of one id, a registry holds the first. -/
theorem definition?_ofDefinitions (definitions : List BlockDef) (id : ResourceId) :
    (ofDefinitions definitions).1.definition? id =
      (definitions.find? (fun definition => definition.id == id)).map arrange := by
  induction definitions using List.reverseRecOn with
  | nil => rfl
  | append_singleton front last inductionHypothesis =>
      have enumerated : Enumerated (front ++ [last]) (ofDefinitions front).1 :=
        (enumerated_ofDefinitions front).mono (List.subset_append_left front [last])
      have unfolded : ofDefinitions (front ++ [last]) = step (ofDefinitions front) last := by
        simp [ofDefinitions]
      rw [unfolded, step, List.find?_append, Option.map_or, ← inductionHypothesis]
      by_cases known : (ofDefinitions front).1.byId.contains last.id = true
      · rw [if_pos known]
        by_cases same : last.id = id
        · -- The registered block of this id is an earlier one.
          have found := enumerated.isSome_definition? id
          rw [← same, Std.ExtTreeMap.isSome_getElem?_eq_contains, known] at found
          rw [← same, Option.or_of_isSome found]
        · simp [same]
      · have fresh : (ofDefinitions front).1.byId[last.id]? = none :=
          Std.ExtTreeMap.getElem?_eq_none_of_contains_eq_false (Bool.eq_false_iff.mpr known)
        rw [if_neg known, enumerated.definition?_add (by simp) fresh]
        by_cases same : last.id = id
        · simp [same]
        · simp [same]

end Registry

/-! ## The blocks of a pack -/

theorem StateFile.grown_inferBlock (file : StateFile) (id : ResourceId) :
    (file.inferBlock id).Grown := by
  unfold inferBlock
  suffices run : ∀ (entries : List (String × Roster String)) (block : BlockDef), block.Grown →
      (entries.foldl
        (fun block entry => block.withProperty entry.1 entry.2.toList) block).Grown from
    run _ _ (.new id)
  intro entries
  induction entries with
  | nil => exact fun _ grown => grown
  | cons entry rest inductionHypothesis =>
      intro block grown
      exact inductionHypothesis _ (grown.withProperty entry.1 entry.2.toList)

namespace InferredBlocks

theorem grown_withLevels {block : BlockDef} (grown : block.Grown) (kind : FluidKind) :
    (withLevels block kind).Grown :=
  (grown.withProperty "level" levels).makeFluid kind

theorem grown_adjust (settings : Settings) {block : BlockDef} (grown : block.Grown) :
    (adjust settings block).Grown := by
  have shown : (if settings.isInvisible block.id then block.makeInvisible else block).Grown := by
    split
    · exact grown.makeInvisible
    · exact grown
  unfold adjust
  cases settings.fluidKind? block.id with
  | some kind => exact grown_withLevels shown kind
  | none => exact shown

theorem grown_mentioned (id : ResourceId) (text : String) : (mentioned id text).1.Grown := by
  unfold mentioned
  cases StateFile.parse id text with
  | ok file => exact file.grown_inferBlock id
  | error error => exact .new id

/-- The registry of a pack is one of grown definitions. -/
theorem exists_grown (settings : Settings) (files : Table ResourceId String) :
    ∃ definitions : List BlockDef, (∀ definition ∈ definitions, definition.Grown) ∧
      (registry settings files).1 = (Registry.ofDefinitions definitions).1 := by
  refine ⟨_, ?_, rfl⟩
  intro definition member
  rcases List.mem_append.mp member with read | named
  · obtain ⟨found, isRead, rfl⟩ := List.mem_map.mp read
    obtain ⟨entry, _, rfl⟩ := List.mem_map.mp isRead
    exact grown_adjust settings (grown_mentioned entry.1 entry.2)
  · rcases List.mem_append.mp named with invisible | fluid
    · obtain ⟨name, _, rfl⟩ := List.mem_map.mp invisible
      exact BlockDef.Grown.makeInvisible (.new _)
    · obtain ⟨entry, _, rfl⟩ := List.mem_map.mp fluid
      exact grown_withLevels (.new _) entry.2

end InferredBlocks

end PackModels
