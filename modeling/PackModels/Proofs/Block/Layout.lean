import PackModels.Proofs.Block.Answers
import PackModels.Proofs.Sorted

/-!
Contract: where the blocks and the states of a registry are.

A registry has one block for each id, made of the first definition of that id,
and the blocks are in the order of these definitions. The states of each block
follow those of the block before. Within a block, the number of a state is
written with one digit for each property, the last property fastest: the digits
are the choice of the state, so there is one state for each choice. The order in
which a definition lists its properties does not matter, as a block orders them
by name.

Owns: `digits`, the choice of a number, `firsts`, the definitions that are
registered, and `Laid`, what a registry of definitions is.
-/

namespace PackModels.Registry

/-! ## Digits -/

/-- How many numbers have one digit for each radix. -/
def volume : List Nat → Nat
  | [] => 1
  | radix :: rest => radix * volume rest

/-- The digits of a number for some radices, the last digit fastest. -/
def digits : List Nat → Nat → List Nat
  | [], _ => []
  | _ :: rest, number => number / volume rest :: digits rest (number % volume rest)

/-- The number that some digits stand for. -/
def ofDigits : List Nat → List Nat → Nat
  | _ :: rest, digit :: others => digit * volume rest + ofDigits rest others
  | _, _ => 0

theorem volume_perm {left right : List Nat} (permutation : left.Perm right) :
    volume left = volume right := by
  induction permutation with
  | nil => rfl
  | cons _ _ inductionHypothesis => simp [volume, inductionHypothesis]
  | swap first second rest => simp [volume, Nat.mul_left_comm]
  | trans _ _ first second => omega

theorem ofDigits_digits (radices : List Nat) {number : Nat} (inside : number < volume radices) :
    ofDigits radices (digits radices number) = number := by
  induction radices generalizing number with
  | nil =>
      simp only [volume] at inside
      simp only [ofDigits]
      omega
  | cons radix rest inductionHypothesis =>
      have positive : 0 < volume rest := Nat.pos_of_mul_pos_left (Nat.zero_lt_of_lt inside)
      rw [digits, ofDigits, inductionHypothesis (Nat.mod_lt number positive)]
      exact Nat.div_add_mod' number (volume rest)

/-- How many values each property has. -/
def radices (properties : List Property) : List Nat :=
  properties.map (fun property => property.values.size)

theorem length_choices (properties : List Property) :
    (choices properties).length = volume (radices properties) := by
  induction properties with
  | nil => rfl
  | cons property rest inductionHypothesis =>
      have folded : radices (property :: rest) = property.values.size :: radices rest := rfl
      simp [choices, folded, volume, inductionHypothesis]

/-- Where all pieces have one size, the quotient by it says in which piece an
item is, and the remainder says where in it. -/
theorem getElem?_flatMap_range {α : Type} {pieces : Nat → List α} {size : Nat}
    (sized : ∀ piece, (pieces piece).length = size) {count position : Nat}
    (inside : position < count * size) :
    ((List.range count).flatMap pieces)[position]? =
      (pieces (position / size))[position % size]? := by
  induction count with
  | zero => simp at inside
  | succ count inductionHypothesis =>
      have before : ((List.range count).flatMap pieces).length = count * size := by
        simp [List.length_flatMap, sized]
      rw [List.range_succ, List.flatMap_append, List.getElem?_append, before]
      by_cases early : position < count * size
      · rw [if_pos early, inductionHypothesis early]
      · obtain ⟨offset, rfl⟩ := Nat.exists_eq_add_of_le (Nat.le_of_not_lt early)
        have within : offset < size := by
          rw [Nat.succ_mul] at inside
          omega
        rw [if_neg early, Nat.add_sub_cancel_left, List.flatMap_singleton, Nat.mul_comm count,
          Nat.mul_add_div (by omega), Nat.div_eq_of_lt within, Nat.mul_add_mod,
          Nat.mod_eq_of_lt within, Nat.add_zero]

/-- The choices of some properties are the digits of their positions. -/
theorem getElem?_choices {properties : List Property}
    (few : ∀ property ∈ properties, property.values.size ≤ positionLimit) {position : Nat}
    (inside : position < volume (radices properties)) :
    (choices properties)[position]? = some (digits (radices properties) position) := by
  induction properties generalizing position with
  | nil =>
      have first : position = 0 := Nat.lt_one_iff.mp inside
      rw [first]
      rfl
  | cons property rest inductionHypothesis =>
      have fewRest : ∀ other ∈ rest, other.values.size ≤ positionLimit :=
        fun other member => few other (List.mem_cons_of_mem _ member)
      have positive : 0 < volume (radices rest) :=
        Nat.pos_of_mul_pos_left (Nat.zero_lt_of_lt inside)
      have sized : ∀ value, ((choices rest).map (fun choice => value :: choice)).length =
          volume (radices rest) := by
        intro value
        rw [List.length_map, length_choices]
      rw [choices_cons (few property List.mem_cons_self), getElem?_flatMap_range sized inside,
        List.getElem?_map, inductionHypothesis fewRest (Nat.mod_lt position positive)]
      rfl

/-! ## The order of blocks -/

/-- The first definition of each id, in order. -/
def firsts : List BlockDef → List BlockDef
  | [] => []
  | definition :: rest =>
      definition :: (firsts rest).filter (fun other => other.id != definition.id)

theorem mem_of_mem_firsts {definitions : List BlockDef} {definition : BlockDef}
    (member : definition ∈ firsts definitions) : definition ∈ definitions := by
  induction definitions with
  | nil => exact member
  | cons first rest inductionHypothesis =>
      rcases List.mem_cons.mp member with same | later
      · exact same ▸ List.mem_cons_self
      · exact List.mem_cons_of_mem _ (inductionHypothesis (List.mem_filter.mp later).1)

/-- The definitions of a registry, in order. -/
def definitions (registry : Registry) : List BlockDef :=
  registry.blocks.toList.map BlockEntry.definition

theorem definitions_add (registry : Registry) (definition : BlockDef) :
    (registry.add definition).definitions = registry.definitions ++ [arrange definition] := by
  simp [definitions, add]

/-- More definitions are registered if no block has their id yet, and then the
first of them is. -/
theorem definitions_foldl_step (rest : List BlockDef) (built : Registry × List Warning) :
    (rest.foldl step built).1.definitions = built.1.definitions ++
      ((firsts rest).filter (fun definition => !built.1.byId.contains definition.id)).map
        arrange := by
  induction rest generalizing built with
  | nil => simp [firsts]
  | cons definition rest inductionHypothesis =>
      rw [List.foldl_cons, inductionHypothesis, firsts, step, List.filter_cons,
        List.filter_filter]
      by_cases known : built.1.byId.contains definition.id = true
      · rw [if_pos known, known, Bool.not_true, if_neg Bool.false_ne_true]
        congr 2
        apply List.filter_congr
        intro other _
        -- An id that is not registered is not that of the first definition.
        by_cases same : other.id = definition.id
        · simp only [same, known, Bool.not_true, Bool.false_and]
        · simp only [bne_iff_ne.mpr same, Bool.and_true]
      · rw [if_neg known, Bool.eq_false_iff.mpr known, Bool.not_false, if_pos rfl,
          definitions_add, List.append_assoc, List.map_cons, List.singleton_append]
        congr 3
        apply List.filter_congr
        intro other _
        have newest : (built.1.add definition).byId =
            built.1.byId.insert definition.id built.1.blocks.size := rfl
        rw [newest, Std.ExtTreeMap.contains_insert, Bool.not_or, Bool.and_comm]
        congr 1
        by_cases same : other.id = definition.id
        · simp [same]
        · have different : compare definition.id other.id ≠ .eq :=
            fun equal => same (Std.compare_eq_iff_eq.mp equal).symm
          rw [bne_iff_ne.mpr same, beq_eq_false_iff_ne.mpr different, Bool.not_false]

theorem definitions_ofDefinitions (definitions : List BlockDef) :
    (ofDefinitions definitions).1.definitions = (firsts definitions).map arrange := by
  rw [ofDefinitions, definitions_foldl_step]
  simp [empty, Registry.definitions]

/-! ## The ranges of blocks -/

/-- Where adding a block keeps something, it holds of every registry of
definitions. -/
theorem ofDefinitions_keeps (Kept : Registry → Prop) (start : Kept empty)
    (added : ∀ registry definition, Kept registry → Kept (registry.add definition))
    (definitions : List BlockDef) : Kept (ofDefinitions definitions).1 := by
  induction definitions using List.reverseRecOn with
  | nil => exact start
  | append_singleton front last inductionHypothesis =>
      rw [ofDefinitions, List.foldl_append, List.foldl_cons, List.foldl_nil, step]
      split
      · exact inductionHypothesis
      · exact added _ last inductionHypothesis

theorem statesOf_add_of_lt {registry : Registry} (definition : BlockDef) {handle : BlockHandle}
    (before : handle < registry.blockCount) :
    (registry.add definition).statesOf handle = registry.statesOf handle := by
  have held : (registry.add definition).blocks[handle]? = registry.blocks[handle]? := by
    unfold add
    dsimp only
    rw [Array.getElem?_push]
    exact if_neg (Nat.ne_of_lt before)
  rw [statesOf, statesOf, held]

/-- The states of one more block follow all others. -/
theorem statesOf_add_size (registry : Registry) (definition : BlockDef) :
    (registry.add definition).statesOf registry.blockCount =
      List.range' registry.stateCount (choices (arrange definition).properties).length := by
  have held : (registry.add definition).blocks[registry.blockCount]? = some
      ⟨arrange definition, registry.states.size,
        (choices (arrange definition).properties).length⟩ :=
    Enumerated.getElem?_blocks_add.mpr (.inr ⟨rfl, rfl⟩)
  rw [statesOf, held]
  rfl

/-- The states of the blocks, one block after another, are all states. -/
theorem flatMap_statesOf (definitions : List BlockDef) :
    let registry := (ofDefinitions definitions).1
    (List.range registry.blockCount).flatMap registry.statesOf = registry.handles := by
  apply ofDefinitions_keeps (fun registry =>
    (List.range registry.blockCount).flatMap registry.statesOf = registry.handles)
  · rfl
  · intro registry definition inOrder
    have blocks : (registry.add definition).blockCount = registry.blockCount + 1 := by
      simp [blockCount, add]
    have states : (registry.add definition).stateCount =
        registry.stateCount + (choices (arrange definition).properties).length := by
      simp [stateCount, add]
    have before : (List.range registry.blockCount).flatMap (registry.add definition).statesOf =
        (List.range registry.blockCount).flatMap registry.statesOf :=
      List.flatMap_congr (fun handle listed =>
        statesOf_add_of_lt definition (List.mem_range.mp listed))
    rw [blocks, List.range_succ, List.flatMap_append, before, inOrder, List.flatMap_singleton,
      statesOf_add_size, handles, handles, states, List.range_eq_range', List.range_eq_range',
      ← List.range'_append_1, Nat.zero_add]

/-! ## The order of properties -/

/-- The properties of a block are in increasing order of their names. -/
theorem increasing_arrange {definition : BlockDef}
    (distinct : (definition.properties.map Property.name).Nodup) :
    Increasing Property.name (arrange definition).properties :=
  increasing_sortBy (distinct.sublist (List.filter_sublist.map Property.name))

/-- Whether a definition is another one with its properties in another order. -/
structure Reordered (definition other : BlockDef) : Prop where
  id : other.id = definition.id
  properties : other.properties.Perm definition.properties
  shape : other.shape = definition.shape
  fluid : other.fluid = definition.fluid

/-- There is only one increasing order. -/
theorem Reordered.arrange_eq {definition other : BlockDef} (reordered : Reordered definition other)
    (distinct : (definition.properties.map Property.name).Nodup) :
    arrange other = arrange definition := by
  have distinct' : (other.properties.map Property.name).Nodup :=
    (reordered.properties.map Property.name).nodup_iff.mpr distinct
  have same : (arrange other).properties = (arrange definition).properties := by
    apply (increasing_arrange distinct').eq_of_perm (increasing_arrange distinct)
    exact (List.mergeSort_perm _ _).trans
      ((reordered.properties.filter _).trans (List.mergeSort_perm _ _).symm)
  calc arrange other
      = ⟨other.id, (arrange other).properties, other.shape, other.fluid⟩ := rfl
    _ = ⟨definition.id, (arrange definition).properties, definition.shape, definition.fluid⟩ := by
        rw [same, reordered.id, reordered.shape, reordered.fluid]

theorem ofDefinitions_reordered {definitions others : List BlockDef}
    (distinct : ∀ definition ∈ definitions, (definition.properties.map Property.name).Nodup)
    (reordered : List.Forall₂ Reordered definitions others) :
    ofDefinitions others = ofDefinitions definitions := by
  unfold ofDefinitions
  generalize (empty, []) = built
  induction reordered generalizing built with
  | nil => rfl
  | @cons definition other _ _ head _ inductionHypothesis =>
      have same : step built other = step built definition := by
        rw [step, step, add, add, head.arrange_eq (distinct definition List.mem_cons_self), head.id]
      rw [List.foldl_cons, List.foldl_cons, same]
      exact inductionHypothesis
        (fun other member => distinct other (List.mem_cons_of_mem _ member)) _

/-! ## A block and its states -/

/-- What the block of a definition is in a registry: it has the properties with
values, in increasing order of their names, and one state for each choice, whose
digits are those of the number of the state in its block. -/
structure Laid (registry : Registry) (definition : BlockDef) (handle : BlockHandle)
    (entry : BlockEntry) : Prop where
  owner : registry.blocks[handle]? = some entry
  same : entry.definition = { definition with properties := entry.definition.properties }
  usable : entry.definition.properties.Perm
    (definition.properties.filter (fun property => !property.values.isEmpty))
  sorted : Increasing Property.name entry.definition.properties
  counted : (registry.statesOf handle).length = volume
    (radices (definition.properties.filter (fun property => !property.values.isEmpty)))
  numbered : ∀ position < (registry.statesOf handle).length,
    ofDigits (radices entry.definition.properties)
      (digits (radices entry.definition.properties) position) = position
  digit : ∀ position < (registry.statesOf handle).length,
    ∃ state, (registry.statesOf handle)[position]? = some state ∧
      registry.state? state = some ⟨handle, digits (radices entry.definition.properties) position,
        fluidOf entry.definition (digits (radices entry.definition.properties) position)⟩
  chosen : ∀ state ∈ registry.statesOf handle, ∀ found, registry.state? state = some found →
    Chooses entry.definition.properties found.choice
  unique : ∀ choice, Chooses entry.definition.properties choice → ∃! state,
    (registry.state? state).map (fun found => (found.block, found.choice)) = some (handle, choice)

section Blocks

variable {definitions : List BlockDef} {registry : Registry} {handle : BlockHandle}
  {entry : BlockEntry}

/-- The states of a block are counted by the choices of its properties. -/
theorem Enumerated.stateCount_eq (enumerated : Enumerated definitions registry)
    (owner : registry.blocks[handle]? = some entry) :
    entry.stateCount = volume (radices entry.definition.properties) := by
  rw [enumerated.counted handle entry owner, length_choices]

theorem Enumerated.state?_position (enumerated : Enumerated definitions registry)
    (few : registry.Few) (owner : registry.blocks[handle]? = some entry) {position : Nat}
    (inside : position < entry.stateCount) :
    registry.state? (entry.firstState + position) =
      some ⟨handle, digits (radices entry.definition.properties) position,
        fluidOf entry.definition (digits (radices entry.definition.properties) position)⟩ := by
  rw [enumerated.stateCount_eq owner] at inside
  exact (enumerated.placed _ _).mpr
    ⟨entry, position, owner, rfl, getElem?_choices (few.property owner) inside, rfl⟩

/-- A choice of a block is that of one state. -/
theorem Enumerated.existsUnique_state (enumerated : Enumerated definitions registry)
    (few : registry.Few) (owner : registry.blocks[handle]? = some entry) {choice : List Nat}
    (chosen : Chooses entry.definition.properties choice) :
    ∃! state, (registry.state? state).map (fun found => (found.block, found.choice)) =
      some (handle, choice) := by
  have fewHere := few.property owner
  obtain ⟨state, located⟩ := enumerated.exists_state fewHere owner chosen
  obtain ⟨found, held, block, isChoice⟩ := located.state?_eq
  refine ⟨state, by simp [held, block, isChoice], ?_⟩
  intro other same
  obtain ⟨⟨block', choice', fluid⟩, held', pair⟩ := Option.map_eq_some_iff.mp same
  obtain ⟨rfl, rfl⟩ := Prod.mk.inj pair
  exact enumerated.eq_of_choice_eq fewHere ⟨owner, fluid, held'⟩ located

theorem Enumerated.laid (enumerated : Enumerated definitions registry) (few : registry.Few)
    (owner : registry.blocks[handle]? = some entry) {definition : BlockDef}
    (distinct : (definition.properties.map Property.name).Nodup)
    (made : entry.definition = arrange definition) : Laid registry definition handle entry := by
  have states : registry.statesOf handle = List.range' entry.firstState entry.stateCount := by
    rw [statesOf, owner]
  have length : (registry.statesOf handle).length = entry.stateCount := by
    rw [states, List.length_range']
  have usable : entry.definition.properties.Perm
      (definition.properties.filter (fun property => !property.values.isEmpty)) := by
    rw [made]
    exact List.mergeSort_perm _ _
  refine ⟨owner, ?same, usable, made ▸ increasing_arrange distinct, ?counted, ?numbered, ?digit,
    ?chosen, fun choice => enumerated.existsUnique_state few owner⟩
  case same =>
    rw [made]
    rfl
  case counted =>
    rw [length, enumerated.stateCount_eq owner]
    exact volume_perm (usable.map _)
  case numbered =>
    intro position inside
    rw [length, enumerated.stateCount_eq owner] at inside
    exact ofDigits_digits _ inside
  case digit =>
    intro position inside
    rw [length] at inside
    refine ⟨_, ?_, enumerated.state?_position few owner inside⟩
    rw [states, List.getElem?_range' inside, Nat.one_mul]
  case chosen =>
    intro state member found held
    obtain ⟨choice, located⟩ := (enumerated.mem_statesOf_iff owner).mp member
    obtain ⟨other, held', _, rfl⟩ := located.state?_eq
    obtain rfl := Option.some.inj (held.symm.trans held')
    exact enumerated.chooses_of_few (few.property owner) located

end Blocks

/-! ## A registry of definitions -/

theorem few_ofDefinitions {definitions : List BlockDef}
    (few : ∀ definition ∈ definitions, ∀ property ∈ definition.properties,
      property.values.size ≤ positionLimit) : (ofDefinitions definitions).1.Few :=
  properties_ofDefinitions few

/-- The blocks of a registry are the first definitions of each id, in order,
and their states follow one another without a gap. Each block has one state for
each choice of its properties, in the order of the digits, and every question
about a state is answered. Definitions with their properties in another order
make the same registry. -/
theorem ofDefinitions_laid (definitions : List BlockDef)
    (distinct : ∀ definition ∈ definitions, (definition.properties.map Property.name).Nodup)
    (few : ∀ definition ∈ definitions, ∀ property ∈ definition.properties,
      property.values.size ≤ positionLimit) :
    let registry := (ofDefinitions definitions).1
    registry.blockCount = (firsts definitions).length ∧
      (∀ handle definition, (firsts definitions)[handle]? = some definition →
        ∃ entry, Laid registry definition handle entry) ∧
      (List.range registry.blockCount).flatMap registry.statesOf =
        List.range registry.stateCount ∧
      (∀ state < registry.stateCount, ∃ block ∈ registry.definitions,
        Answers registry state block) ∧
      ∀ others, List.Forall₂ Reordered definitions others →
        ofDefinitions others = ofDefinitions definitions := by
  intro registry
  have enumerated := enumerated_ofDefinitions definitions
  have few := few_ofDefinitions few
  have blocks := definitions_ofDefinitions definitions
  refine ⟨?count, ?laid, flatMap_statesOf definitions, ?answers,
    fun others => ofDefinitions_reordered distinct⟩
  case count =>
    have lengths := congrArg List.length blocks
    rwa [Registry.definitions, List.length_map, List.length_map, Array.length_toList] at lengths
  case laid =>
    intro handle definition first
    have made := congrArg (fun made => made[handle]?) blocks
    simp only [Registry.definitions, List.getElem?_map, first, Option.map_some,
      Option.map_eq_some_iff, Array.getElem?_toList] at made
    obtain ⟨entry, owner, same⟩ := made
    have listed := mem_of_mem_firsts (List.mem_of_getElem? first)
    exact ⟨entry, enumerated.laid few owner (distinct definition listed) same⟩
  case answers =>
    intro state known
    obtain ⟨handle, entry, choice, located⟩ := enumerated.exists_located known
    have apart := (unambiguous_ofDefinitions distinct).block located.owner
    have member : entry ∈ registry.blocks.toList :=
      Array.mem_toList_iff.mpr (Array.mem_of_getElem? located.owner)
    exact ⟨entry.definition, List.mem_map_of_mem member, enumerated.answers few apart located⟩

/-- A block with two properties of values, listed in another order than that of
their names, one without values, and a second definition of the block. -/
theorem ofDefinitions_laid_furnace :
    let furnace : BlockDef := ⟨⟨"minecraft", "furnace"⟩,
      [⟨"lit", #["false", "true"]⟩, ⟨"kind", #[]⟩, ⟨"facing", #["north", "south"]⟩], .model, none⟩
    let again := BlockDef.new ⟨"minecraft", "furnace"⟩
    (∀ definition ∈ [furnace, again], (definition.properties.map Property.name).Nodup) ∧
      (∀ definition ∈ [furnace, again], ∀ property ∈ definition.properties,
        property.values.size ≤ positionLimit) ∧
      (ofDefinitions [furnace, again]).1.blockCount = 1 ∧
      ((ofDefinitions [furnace, again]).1.statesOf 0).length = 4 := by
  intro furnace again
  have distinct : ∀ definition ∈ [furnace, again],
      (definition.properties.map Property.name).Nodup := by decide
  have few : ∀ definition ∈ [furnace, again], ∀ property ∈ definition.properties,
      property.values.size ≤ positionLimit := by decide
  obtain ⟨count, laid, _⟩ := ofDefinitions_laid [furnace, again] distinct few
  obtain ⟨entry, laid⟩ := laid 0 furnace rfl
  exact ⟨distinct, few, count, laid.counted⟩

end PackModels.Registry
