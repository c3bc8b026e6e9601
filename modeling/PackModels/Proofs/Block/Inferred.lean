import PackModels.Proofs.Block.Keys
import PackModels.Proofs.Block.Mentions

/-!
Contract: which blocks the registry of a pack without a list of blocks has.

There is one block for each id that has a state file or that the settings name
as invisible or as a fluid. A block draws nothing exactly if the settings name
it in one of the two ways. A block with a state file has the fluid that the
settings give it, and so has one that is only named as a fluid; but the blocks
named as invisible come before the fluids, so a block without a state file that
is named in both ways keeps no fluid.
-/

namespace PackModels

namespace InferredBlocks

variable (settings : Settings) (files : Table ResourceId String)

/-- What a state file mentions are properties and nothing else. -/
theorem exists_mentioned_eq (id : ResourceId) (text : String) :
    ∃ properties, (mentioned id text).1 = .plain id properties := by
  unfold mentioned
  cases StateFile.parse id text with
  | ok file => exact ⟨_, file.inferBlock_eq id⟩
  | error error => exact ⟨[], rfl⟩

/-- The settings decide about the shape and the fluid of a block with a state
file, whatever the file mentions. -/
theorem adjust_mentioned_cases (id : ResourceId) (text : String) :
    ((adjust settings (mentioned id text).1).shape = .invisible ↔
      settings.isInvisible id = true ∨ (settings.fluidKind? id).isSome = true) ∧
    (adjust settings (mentioned id text).1).fluid = settings.fluidKind? id := by
  obtain ⟨properties, same⟩ := exists_mentioned_eq id text
  rw [same]
  unfold adjust BlockDef.plain
  cases hidden : settings.isInvisible id <;> cases fluid : settings.fluidKind? id <;>
    simp_all [withLevels, BlockDef.makeFluid, BlockDef.makeInvisible, BlockDef.withProperty]

/-- The definitions of the blocks of a pack. -/
def definitions (settings : Settings) (files : Table ResourceId String) : List BlockDef :=
  files.toList.map (fun entry => adjust settings (mentioned entry.1 entry.2).1) ++ named settings

theorem registry_eq (settings : Settings) (files : Table ResourceId String) :
    (registry settings files).1 = (Registry.ofDefinitions (definitions settings files)).1 := by
  rw [registry, List.map_map]
  rfl

/-- A fluid has its levels behind what is there. -/
theorem properties_adjust (block : BlockDef) :
    (adjust settings block).properties =
      match settings.fluidKind? block.id with
      | some _ => BlockDef.mergeProperty "level" levels block.properties
      | none => block.properties := by
  unfold adjust
  cases settings.isInvisible block.id <;> cases settings.fluidKind? block.id <;> rfl

/-! ## The block of an id -/

theorem id_adjust (block : BlockDef) : (adjust settings block).id = block.id := by
  unfold adjust
  cases settings.isInvisible block.id <;> cases settings.fluidKind? block.id <;> rfl

theorem id_mentioned (id : ResourceId) (text : String) : (mentioned id text).1.id = id := by
  obtain ⟨properties, same⟩ := exists_mentioned_eq id text
  rw [same, BlockDef.plain]

theorem find?_invisible (id : ResourceId) :
    (settings.invisibleBlocks.map
        (fun name => (BlockDef.new (ResourceId.parse name)).makeInvisible)).find?
          (fun block => block.id == id) =
      if settings.isInvisible id then some (BlockDef.new id).makeInvisible else none := by
  have named : ∀ name, ((BlockDef.new (ResourceId.parse name)).makeInvisible.id == id) =
      (ResourceId.parse name == id) := fun _ => rfl
  rw [List.find?_map]
  simp only [Function.comp_def, named]
  unfold Settings.isInvisible
  cases found : settings.invisibleBlocks.find? (fun name => ResourceId.parse name == id) with
  | none =>
      have unlisted : settings.invisibleBlocks.any (fun name => ResourceId.parse name == id) =
          false := by
        simpa using found
      rw [unlisted, if_neg (by simp), Option.map_none]
  | some name =>
      have listed := List.mem_of_find?_eq_some found
      have same := List.find?_some found
      rw [if_pos (List.any_eq_true.mpr ⟨name, listed, same⟩), Option.map_some, eq_of_beq same]

theorem find?_fluid (id : ResourceId) :
    (settings.fluidBlocks.toList.map
        (fun entry => withLevels (.new (ResourceId.parse entry.1)) entry.2)).find?
          (fun block => block.id == id) =
      (settings.fluidKind? id).map (withLevels (.new id)) := by
  have named : ∀ entry : String × FluidKind,
      ((withLevels (.new (ResourceId.parse entry.1)) entry.2).id == id) =
        (ResourceId.parse entry.1 == id) := fun _ => rfl
  rw [List.find?_map]
  simp only [Function.comp_def, named]
  unfold Settings.fluidKind? Settings.firstNamed?
  cases found : settings.fluidBlocks.toList.find?
      (fun entry => ResourceId.parse entry.1 == id) with
  | none => rfl
  | some entry =>
      have same := List.find?_some found
      rw [Option.map_some, Option.map_some, Option.map_some, eq_of_beq same]

/-- The block of an id without a state file. A name among the invisible blocks
comes before one among the fluids. -/
def named? (id : ResourceId) : Option BlockDef :=
  if settings.isInvisible id then some (BlockDef.new id).makeInvisible
  else (settings.fluidKind? id).map (withLevels (.new id))

theorem find?_named (id : ResourceId) :
    (named settings).find? (fun block => block.id == id) = named? settings id := by
  unfold named named?
  rw [List.find?_append, find?_invisible, find?_fluid]
  by_cases hidden : settings.isInvisible id = true
  · rw [if_pos hidden, if_pos hidden, Option.some_or]
  · rw [if_neg hidden, if_neg hidden, Option.none_or]

/-- The block of an id is the one of its state file, or else the one that the
settings name. -/
theorem definition?_registry (id : ResourceId) :
    (registry settings files).1.definition? id =
      ((files[id]?.map (fun text => adjust settings (mentioned id text).1)).or
        (named? settings id)).map Registry.arrange := by
  have read : ∀ entry : ResourceId × String,
      ((adjust settings (mentioned entry.1 entry.2).1).id == id) = (entry.1 == id) := by
    intro entry
    rw [id_adjust, id_mentioned]
  unfold registry
  rw [Registry.definition?_ofDefinitions, List.find?_append, find?_named, List.map_map,
    List.find?_map]
  simp only [Function.comp_def, read]
  rw [Table.find?_toList, Option.map_map]
  rfl

/-! ## The blocks of a registry -/

theorem isInvisible_iff (id : ResourceId) :
    settings.isInvisible id = true ↔
      ∃ name ∈ settings.invisibleBlocks, ResourceId.parse name = id := by
  unfold Settings.isInvisible
  simp

theorem isSome_fluidKind?_iff (id : ResourceId) :
    (settings.fluidKind? id).isSome = true ↔
      ∃ entry ∈ settings.fluidBlocks.toList, ResourceId.parse entry.1 = id := by
  unfold Settings.fluidKind? Settings.firstNamed?
  rw [Option.isSome_map, List.find?_isSome]
  simp

/-- A block without a state file draws nothing, and it is a fluid only if it is
not named as invisible. -/
theorem named?_cases {id : ResourceId} {block : BlockDef}
    (named : named? settings id = some block) :
    block.shape = .invisible ∧
      block.fluid = (if settings.isInvisible id then none else settings.fluidKind? id) ∧
      (settings.isInvisible id = true ∨ (settings.fluidKind? id).isSome = true) := by
  unfold named? at named
  by_cases hidden : settings.isInvisible id = true
  · rw [if_pos hidden, Option.some.injEq] at named
    rw [← named, if_pos hidden]
    exact ⟨rfl, rfl, .inl hidden⟩
  · rw [if_neg hidden, Option.map_eq_some_iff] at named
    obtain ⟨kind, fluid, rfl⟩ := named
    rw [if_neg hidden, fluid]
    exact ⟨rfl, rfl, .inr rfl⟩

/-- The registry has one block for each id that has a state file or that the
settings name as invisible or as a fluid. A block draws nothing exactly if the
settings name it, and its fluid is that of the settings, except that a block
without a state file that is named as invisible has none. -/
theorem registry_exact :
    (∀ id, id ∈ (registry settings files).1.ids ↔
      id ∈ files ∨ (∃ name ∈ settings.invisibleBlocks, ResourceId.parse name = id) ∨
        ∃ entry ∈ settings.fluidBlocks.toList, ResourceId.parse entry.1 = id) ∧
    (registry settings files).1.ids.Nodup ∧
    ∀ entry ∈ (registry settings files).1.blocks,
      (entry.definition.shape = .invisible ↔
        settings.isInvisible entry.definition.id = true ∨
          (settings.fluidKind? entry.definition.id).isSome = true) ∧
      entry.definition.fluid =
        if entry.definition.id ∉ files ∧ settings.isInvisible entry.definition.id = true then none
        else settings.fluidKind? entry.definition.id := by
  have enumerated : Registry.Enumerated _ (registry settings files).1 :=
    Registry.enumerated_ofDefinitions _
  refine ⟨?ids, enumerated.nodup_ids, ?blocks⟩
  case ids =>
    intro id
    rw [enumerated.mem_ids_iff, definition?_registry, Option.isSome_map, Option.isSome_or,
      Option.isSome_map, ← isInvisible_iff, ← isSome_fluidKind?_iff, Bool.or_eq_true,
      Std.ExtTreeMap.mem_iff_isSome_getElem?, named?]
    refine or_congr_right ?_
    by_cases hidden : settings.isInvisible id = true
    · simp [hidden]
    · simp [hidden]
  case blocks =>
    intro entry member
    obtain ⟨handle, owner⟩ := Array.mem_iff_getElem?.mp member
    have found := enumerated.definition?_eq_some_iff.mpr ⟨handle, entry, owner, rfl, rfl⟩
    rw [definition?_registry, Option.map_eq_some_iff] at found
    obtain ⟨block, isBlock, arranged⟩ := found
    have sameShape : entry.definition.shape = block.shape := by rw [← arranged]; rfl
    have sameFluid : entry.definition.fluid = block.fluid := by rw [← arranged]; rfl
    rw [sameShape, sameFluid]
    cases held : files[entry.definition.id]? with
    | some text =>
        rw [held, Option.map_some, Option.some_or, Option.some.injEq] at isBlock
        obtain ⟨shape, fluid⟩ := adjust_mentioned_cases settings entry.definition.id text
        rw [isBlock] at shape fluid
        have filed : entry.definition.id ∈ files := by
          rw [Std.ExtTreeMap.mem_iff_isSome_getElem?, held, Option.isSome_some]
        rw [if_neg (fun both => both.1 filed)]
        exact ⟨shape, fluid⟩
    | none =>
        rw [held, Option.map_none, Option.none_or] at isBlock
        obtain ⟨shape, fluid, listed⟩ := named?_cases settings isBlock
        have unfiled : entry.definition.id ∉ files := by
          rw [Std.ExtTreeMap.mem_iff_isSome_getElem?, held, Option.isSome_none]
          exact Bool.false_ne_true
        rw [shape, fluid, eq_self, true_iff]
        refine ⟨listed, ?_⟩
        by_cases hidden : settings.isInvisible entry.definition.id = true
        · rw [if_pos hidden, if_pos ⟨unfiled, hidden⟩]
        · rw [if_neg hidden, if_neg (fun both => hidden both.2)]

/-- Settings that name one block both as invisible and as a fluid. -/
def bothNames : Settings :=
  { Settings.default with
    invisibleBlocks := ["foo"]
    fluidBlocks := Table.ofPairs [("minecraft:foo", .water)] }

/-- With a state file, even one that cannot be read, such a block is a fluid. -/
theorem registry_exact_filed :
    ∃ entry ∈ (registry bothNames (Table.ofPairs [(.inDefaultSpace "foo", "\x7b")])).1.blocks,
      entry.definition.shape = .invisible ∧ entry.definition.fluid = some .water := by
  obtain ⟨ids, _, blocks⟩ :=
    registry_exact bothNames (Table.ofPairs [(.inDefaultSpace "foo", "\x7b")])
  have filed : ResourceId.inDefaultSpace "foo" ∈
      Table.ofPairs [(ResourceId.inDefaultSpace "foo", "\x7b")] := by decide
  obtain ⟨entry, member, named⟩ := List.mem_map.mp ((ids (.inDefaultSpace "foo")).mpr (.inl filed))
  obtain ⟨shape, fluid⟩ := blocks entry (Array.mem_toList_iff.mp member)
  rw [named] at shape fluid
  rw [if_neg (fun both => both.1 filed)] at fluid
  exact ⟨entry, Array.mem_toList_iff.mp member, shape.mpr (.inl (by decide)), by rw [fluid]; decide⟩

/-- Without a state file it is not, whatever the settings say. -/
theorem registry_fluid_ne_fluidKind? :
    bothNames.fluidKind? (.inDefaultSpace "foo") = some .water ∧
      ((registry bothNames ∅).1.definition? (.inDefaultSpace "foo")).map BlockDef.fluid =
        some none := by
  rw [definition?_registry, Std.ExtTreeMap.getElem?_empty]
  decide

end InferredBlocks

end PackModels
