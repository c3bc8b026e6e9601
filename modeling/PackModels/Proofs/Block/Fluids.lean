import PackModels.Proofs.Block.Answers
import PackModels.Proofs.Block.Inferred
import PackModels.Proofs.Sorted

/-!
Contract: the default states of the fluids of a pack without a list of blocks.

The default state of a block is its first one, which gives every property its
first value. A fluid has all sixteen levels, but they come after those that its
state file mentions, and these stand in the order of texts. So the default level
of a fluid is the least text that its file mentions as a level, and zero only if
it mentions none. A file that mentions some of the sixteen levels but not zero
has a fluid that flows by default.

Owns: the first state of a block, `MentionsLevel` and `DefaultLevel`.

Does not own: which blocks of a pack are fluids.
-/

namespace PackModels

namespace Registry

/-! ## The first state of a block -/

/-- Where every property has a value, the first choice takes all first values. -/
theorem head?_choices {properties : List Property}
    (filled : ∀ property ∈ properties, property.values.isEmpty = false) :
    (choices properties).head? = some (List.replicate properties.length 0) := by
  induction properties with
  | nil => rfl
  | cons property rest inductionHypothesis =>
      rw [List.forall_mem_cons] at filled
      have present : property.values.size ≠ 0 := by
        intro none
        have isEmpty : property.values.isEmpty = true := by
          rw [Array.isEmpty, none]
          rfl
        rw [filled.1] at isEmpty
        cases isEmpty
      obtain ⟨more, sized⟩ := Nat.exists_eq_succ_of_ne_zero present
      rw [choices, sized, List.range_succ_eq_map, List.flatMap_cons, List.head?_append,
        List.head?_map, inductionHypothesis filled.2]
      rfl

/-- What the first choice gives to a property is its first value. -/
theorem chosen?_first {block : BlockDef} (apart : (block.properties.map Property.name).Nodup)
    {property : Property} (member : property ∈ block.properties) :
    chosen? block (List.replicate block.properties.length 0) property.name =
      property.values[0]? := by
  obtain ⟨index, inside, rfl⟩ := List.getElem_of_mem member
  rw [chosen?_getElem apart inside, List.getElem?_replicate, if_pos inside, Option.bind_some]

variable {definitions : List BlockDef} {registry : Registry} {handle : BlockHandle}
  {entry : BlockEntry}

/-- A block has a default state, the first one of its states. -/
theorem Enumerated.exists_default (enumerated : Enumerated definitions registry)
    (owner : registry.blocks[handle]? = some entry) :
    ∃ state, registry.defaultState? handle = some state ∧
      Located registry state handle entry
        (List.replicate entry.definition.properties.length 0) ∧
      registry.fluid? state =
        some (fluidOf entry.definition (List.replicate entry.definition.properties.length 0)) := by
  have first := head?_choices (enumerated.filled owner)
  rw [List.head?_eq_getElem?] at first
  have held := (enumerated.placed entry.firstState ⟨handle, _, fluidOf entry.definition _⟩).mpr
    ⟨entry, 0, owner, rfl, first, rfl⟩
  refine ⟨entry.firstState, ?_, ⟨owner, _, held⟩, ?_⟩
  · rw [defaultState?, owner, Option.map_some]
  · rw [fluid?, state?, held, Option.map_some]

end Registry

namespace InferredBlocks

variable (settings : Settings) (files : Table ResourceId String) (id : ResourceId)

/-! ## The levels that a file mentions -/

/-- The state file of a block can be read and mentions a level. -/
def MentionsLevel (level : String) : Prop :=
  ∃ text file, files[id]? = some text ∧ StateFile.parse id text = .ok file ∧
    file.Speaks "level" level

/-- The level of a fluid by default: the least text that its file mentions as a
level, or zero. -/
def DefaultLevel (level : String) : Prop :=
  (level = "0" ∧ ∀ other, ¬ MentionsLevel files id other) ∨
    (MentionsLevel files id level ∧
      ∀ other, MentionsLevel files id other → (compare level other).isLE = true)

/-- The texts that the state file of a block mentions as levels. -/
def levelTexts : Roster String :=
  match files[id]?.map (StateFile.parse id) with
  | some (.ok file) => file.mentioned["level"]?.getD ∅
  | _ => ∅

theorem mem_levelTexts_iff {level : String} :
    level ∈ levelTexts files id ↔ MentionsLevel files id level := by
  unfold levelTexts MentionsLevel
  cases held : files[id]? with
  | none => simp
  | some text =>
      rw [Option.map_some]
      cases parsed : StateFile.parse id text with
      | error error => simp [parsed]
      | ok file =>
          dsimp only
          rw [StateFile.mem_mentioned_iff]
          constructor
          · intro mentions
            exact ⟨text, file, rfl, parsed, mentions⟩
          · rintro ⟨_, _, same, parsed', mentions⟩
            obtain rfl := Option.some.inj same
            obtain rfl := Except.ok.inj (parsed.symm.trans parsed')
            exact mentions

/-- The first of the texts in order, or zero, is the level by default. -/
theorem defaultLevel_head? :
    DefaultLevel files id ((levelTexts files id).toList.head?.getD "0") := by
  have mentions : ∀ level, level ∈ (levelTexts files id).toList ↔ MentionsLevel files id level :=
    fun level => Std.ExtTreeSet.mem_toList.trans (mem_levelTexts_iff files id)
  have increasing := (levelTexts files id).increasing_toList
  cases texts : (levelTexts files id).toList with
  | nil =>
      refine .inl ⟨rfl, fun other mentioned => ?_⟩
      rw [← mentions, texts] at mentioned
      cases mentioned
  | cons first rest =>
      rw [texts] at mentions increasing
      refine .inr ⟨(mentions first).mp List.mem_cons_self, fun other mentioned => ?_⟩
      rw [List.head?_cons, Option.getD_some]
      rcases List.mem_cons.mp ((mentions other).mpr mentioned) with rfl | later
      · rw [Std.compare_self]
        rfl
      · have before : compare first other = .lt := (List.pairwise_cons.mp increasing).1 other later
        rw [before]
        rfl

/-- The properties that the state file of a block mentions. -/
def mentionedProperties : List Property :=
  (files[id]?.map (fun text => (mentioned id text).1.properties)).getD []

theorem valuesOf_mentionedProperties :
    BlockDef.valuesOf (mentionedProperties files id) "level" =
      (levelTexts files id).toList.toArray := by
  unfold mentionedProperties levelTexts
  cases files[id]? with
  | none => rfl
  | some text =>
      rw [Option.map_some, Option.getD_some, Option.map_some, mentioned]
      cases StateFile.parse id text with
      | error error => rfl
      | ok file =>
          have named : ∀ entry : String × Roster String,
              ((StateFile.mentionedProperty entry).name == "level") = (entry.1 == "level") :=
            fun _ => rfl
          dsimp only
          rw [file.inferBlock_eq id, BlockDef.plain, BlockDef.valuesOf, List.find?_map]
          simp only [Function.comp_def, named]
          rw [Table.find?_toList]
          cases file.mentioned["level"]? with
          | none => rfl
          | some values => rfl

/-! ## The fluids of a pack -/

section Fluid

variable {settings files} {handle : BlockHandle} {entry : BlockEntry}
  {kind : FluidKind}

/-- A fluid is made of the properties that its file mentions and the levels. -/
theorem exists_fluid (owner : (registry settings files).1.blocks[handle]? = some entry)
    (fluid : entry.definition.fluid = some kind) :
    ∃ block, entry.definition = Registry.arrange block ∧ block.Grown ∧
      block.properties = BlockDef.mergeProperty "level" levels
        (mentionedProperties files entry.definition.id) := by
  have enumerated : Registry.Enumerated _ (registry settings files).1 :=
    Registry.enumerated_ofDefinitions _
  have found := enumerated.definition?_eq_some_iff.mpr ⟨handle, entry, owner, rfl, rfl⟩
  rw [definition?_registry, Option.map_eq_some_iff] at found
  obtain ⟨block, isBlock, arranged⟩ := found
  have isFluid : block.fluid = some kind := by
    rw [← fluid, ← arranged]
    rfl
  refine ⟨block, arranged.symm, ?_⟩
  unfold mentionedProperties
  cases held : files[entry.definition.id]? with
  | some text =>
      rw [held, Option.map_some, Option.some_or, Option.some.injEq] at isBlock
      rw [← isBlock, (adjust_mentioned_cases settings entry.definition.id text).2] at isFluid
      rw [← id_mentioned entry.definition.id text] at isFluid
      rw [← isBlock, properties_adjust, isFluid]
      exact ⟨grown_adjust settings (grown_mentioned _ text), rfl⟩
  | none =>
      rw [held, Option.map_none, Option.none_or] at isBlock
      obtain ⟨_, settled, _⟩ := named?_cases settings isBlock
      rw [isFluid] at settled
      unfold named? at isBlock
      by_cases hidden : settings.isInvisible entry.definition.id = true
      · rw [if_pos hidden] at settled
        cases settled
      · rw [if_neg hidden, Option.map_eq_some_iff] at isBlock
        obtain ⟨kind', _, rfl⟩ := isBlock
        exact ⟨grown_withLevels (.new _) kind', rfl⟩

/-- A fluid has all levels, and the first one is its level by default. -/
theorem exists_level (owner : (registry settings files).1.blocks[handle]? = some entry)
    (fluid : entry.definition.fluid = some kind) :
    (entry.definition.properties.map Property.name).Nodup ∧
      ∃ property ∈ entry.definition.properties, property.name = "level" ∧
        (∀ level ∈ levels, level ∈ property.values) ∧
        property.values[0]? =
          some ((levelTexts files entry.definition.id).toList.head?.getD "0") := by
  obtain ⟨block, arranged, grown, made⟩ := exists_fluid owner fluid
  have distinct : BlockDef.addValues #[] levels = levels.toArray := by decide +kernel
  obtain ⟨property, member, named, values⟩ :=
    BlockDef.exists_merged distinct (mentionedProperties files entry.definition.id)
  have all : ∀ level ∈ levels, level ∈ property.values := by
    intro level listed
    rw [values]
    exact BlockDef.mem_addValues.mpr (.inr listed)
  have first : property.values[0]? =
      some ((levelTexts files entry.definition.id).toList.head?.getD "0") := by
    have zero : levels.head? = some "0" := by decide
    rw [values, BlockDef.getElem?_zero_addValues, valuesOf_mentionedProperties, zero,
      List.getElem?_toArray, ← List.head?_eq_getElem?]
    cases (levelTexts files entry.definition.id).toList.head? <;> rfl
  have filled : property.values.isEmpty = false := by
    obtain ⟨inside, _⟩ := Array.getElem?_eq_some_iff.mp first
    simpa using Array.size_pos_iff.mp inside
  rw [arranged] at first ⊢
  refine ⟨Registry.nodup_arrange grown.nodup, property, ?_, named, all, first⟩
  exact Registry.mem_arrange_iff.mpr ⟨made ▸ member, filled⟩

/-- A default state follows the level by default. -/
theorem exists_default (owner : (registry settings files).1.blocks[handle]? = some entry)
    (fluid : entry.definition.fluid = some kind) :
    ∃ state level, (registry settings files).1.defaultState? handle = some state ∧
      DefaultLevel files entry.definition.id level ∧
      (registry settings files).1.value? state "level" = some level ∧
      (registry settings files).1.fluid? state =
        some (.ofLevel kind ((Registry.level? level).getD 0)) := by
  have enumerated : Registry.Enumerated _ (registry settings files).1 :=
    Registry.enumerated_ofDefinitions _
  obtain ⟨state, isDefault, located, holds⟩ := enumerated.exists_default owner
  obtain ⟨apart, property, member, named, _, first⟩ := exists_level owner fluid
  have chosen := Registry.chosen?_first apart member
  rw [named, first] at chosen
  refine ⟨state, _, isDefault, defaultLevel_head? files _, ?_, ?_⟩
  · rw [located.value?_eq, chosen]
  · rw [holds, Registry.fluidOf, fluid]
    dsimp only
    rw [chosen, Option.bind_some]

end Fluid

theorem ofLevel_eq_source_iff (kind : FluidKind) (level : Nat) :
    FluidState.ofLevel kind level = .source kind ↔ level = 0 := by
  unfold FluidState.ofLevel
  by_cases source : level = 0
  · simp [source]
  · rw [if_neg source]
    split <;> simp [source]

/-- Of the sixteen levels only zero is read as zero. -/
theorem level?_eq_zero_iff : ∀ level ∈ levels,
    ((Registry.level? level).getD 0 = 0 ↔ level = "0") := by
  decide +kernel

/-- None of the sixteen levels comes before zero. -/
theorem eq_zero_of_isLE : ∀ level ∈ levels, (compare level "0").isLE = true → level = "0" := by
  decide +kernel

/-- Every fluid of a pack has all sixteen levels. Its default state is in the
level that comes first: the least text that its file mentions as a level, or
zero if it mentions none. It is a source exactly if this reads as zero. Where a
file mentions none but the sixteen levels, that is the case exactly if it
mentions zero or nothing. -/
theorem fluid_default_exact (settings : Settings) (files : Table ResourceId String) :
    let registry := (InferredBlocks.registry settings files).1
    ∀ handle entry kind, registry.blocks[handle]? = some entry →
      entry.definition.fluid = some kind →
      (∃ property ∈ entry.definition.properties, property.name = "level" ∧
        ∀ level ∈ levels, level ∈ property.values) ∧
      ∃ state level, registry.defaultState? handle = some state ∧
        DefaultLevel files entry.definition.id level ∧
        registry.value? state "level" = some level ∧
        registry.fluid? state = some (.ofLevel kind ((Registry.level? level).getD 0)) ∧
        (registry.fluid? state = some (.source kind) ↔ (Registry.level? level).getD 0 = 0) ∧
        ((∀ other, MentionsLevel files entry.definition.id other → other ∈ levels) →
          (registry.fluid? state = some (.source kind) ↔
            MentionsLevel files entry.definition.id "0" ∨
              ∀ other, ¬ MentionsLevel files entry.definition.id other)) := by
  intro registry handle entry kind owner fluid
  obtain ⟨_, property, member, named, all, _⟩ := exists_level owner fluid
  obtain ⟨state, level, isDefault, first, value, holds⟩ := exists_default owner fluid
  have source : registry.fluid? state = some (.source kind) ↔
      (Registry.level? level).getD 0 = 0 := by
    rw [holds, Option.some.injEq, ofLevel_eq_source_iff]
  refine ⟨⟨property, member, named, all⟩, state, level, isDefault, first, value, holds, source, ?_⟩
  intro usual
  rw [source]
  rcases first with ⟨rfl, unmentioned⟩ | ⟨mentioned, least⟩
  · exact ⟨fun _ => .inr unmentioned, fun _ => rfl⟩
  · rw [level?_eq_zero_iff level (usual level mentioned)]
    constructor
    · rintro rfl
      exact .inl mentioned
    · rintro (zero | unmentioned)
      · exact eq_zero_of_isLE level (usual level mentioned) (least "0" zero)
      · exact absurd mentioned (unmentioned level)

/-- A pack of water, drawn at one level only. -/
def waterAt (level : String) : Table ResourceId String :=
  Table.ofPairs [(.inDefaultSpace "water",
    "\x7b\"variants\":\x7b\"level=" ++ level ++ "\":\x7b\"model\":\"water\"\x7d\x7d\x7d")]

theorem arranged_waterAt : ∀ definition ∈ definitions .default (waterAt "1"),
    Registry.Arranged definition := by
  decide +kernel

/-- Water is the first block of such a pack. -/
theorem exists_waterAt : ∃ entry, (registry .default (waterAt "1")).1.blocks[0]? = some entry ∧
    entry.definition.fluid = some .water := by
  have found : ((registry .default (waterAt "1")).1.blocks[0]?.bind
      (fun entry => entry.definition.fluid)) = some .water := by
    rw [registry_eq, Registry.ofDefinitions_of_arranged arranged_waterAt]
    decide +kernel
  exact Option.bind_eq_some_iff.mp found

/-- The default state of water that is only drawn at level one. -/
theorem fluid_default_exact_waterAt :
    ∃ entry, (registry .default (waterAt "1")).1.blocks[0]? = some entry ∧
      entry.definition.fluid = some .water ∧
      ∃ state level, (registry .default (waterAt "1")).1.defaultState? 0 = some state ∧
        DefaultLevel (waterAt "1") entry.definition.id level ∧
        (registry .default (waterAt "1")).1.value? state "level" = some level := by
  obtain ⟨entry, owner, fluid⟩ := exists_waterAt
  obtain ⟨_, state, level, isDefault, first, value, _⟩ :=
    fluid_default_exact .default (waterAt "1") 0 entry .water owner fluid
  exact ⟨entry, owner, fluid, state, level, isDefault, first, value⟩

/-- It is no source, but flows. -/
theorem fluid_default_ne_source :
    ¬ ∀ settings files handle entry kind,
      (registry settings files).1.blocks[handle]? = some entry →
        entry.definition.fluid = some kind →
          ((registry settings files).1.defaultState? handle).bind
            (registry settings files).1.fluid? = some (.source kind) := by
  intro source
  obtain ⟨entry, owner, fluid⟩ := exists_waterAt
  have isSource := source _ _ _ _ _ owner fluid
  have flows : ((registry .default (waterAt "1")).1.defaultState? 0).bind
      (registry .default (waterAt "1")).1.fluid? = some (.flowing .water 7 false) := by
    rw [registry_eq, Registry.ofDefinitions_of_arranged arranged_waterAt]
    decide +kernel
  rw [flows] at isSource
  cases isSource

end InferredBlocks

end PackModels
