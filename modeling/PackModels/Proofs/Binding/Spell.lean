import PackModels.Proofs.Binding.Load
import PackModels.Proofs.Json.Write

/-!
Contract: binding undoes the naming of states.

For every assignment of variants to states there is a state file that gives
each of them under the key of its state, and loading that file binds each state
to the variant that it was assigned, binds nothing else and has no complaint. This
takes blocks without two properties of one name, which the blocks of a pack are.

Owns: `spell`, a text of such a file, and `Undone`, what the keys of a registry
are good for.
-/

namespace PackModels

open Json (Node Literal)
open Json.Reader (Member Written)

namespace StateFile

/-! ## Written variants -/

/-- The plain way to write a variant. -/
def RawVariant.ofVariant (variant : Variant) : RawVariant :=
  ⟨variant.model, variant.placement.turns.xDegrees, variant.placement.turns.yDegrees,
    variant.placement.uvLock, 1⟩

theorem quarters?_degrees (quarter : Fin 4) :
    QuarterTurns.quarters? ((quarter.val * 90 : Nat) : Int) = some quarter := by
  match quarter with
  | 0 | 1 | 2 | 3 => rfl

theorem place_ofVariant (id : ResourceId) (variant : Variant) :
    (RawVariant.ofVariant variant).place id = .ok variant := by
  have turns : QuarterTurns.ofDegrees? (RawVariant.ofVariant variant).x
      (RawVariant.ofVariant variant).y = some variant.placement.turns := by
    unfold QuarterTurns.ofDegrees? RawVariant.ofVariant
    dsimp only [QuarterTurns.xDegrees, QuarterTurns.yDegrees]
    rw [quarters?_degrees, quarters?_degrees]
  unfold RawVariant.place
  rw [turns]
  rfl

def degreeDigits : Fin 4 → List Nat
  | 0 => [0]
  | 1 => [9, 0]
  | 2 => [1, 8, 0]
  | 3 => [2, 7, 0]

def degreeNode (quarter : Fin 4) : Node :=
  .number ⟨false, degreeDigits quarter, none, none⟩

theorem written_degrees (quarter : Fin 4) :
    Written ((degreeDigits quarter).map Nat.digitChar) (degreeNode quarter) := by
  match quarter with
  | 0 | 1 | 2 | 3 => exact Json.Reader.written_digits (by decide) (by decide)

theorem ofLiteral?_degrees (quarter : Fin 4) :
    Json.Number.ofLiteral? ⟨false, degreeDigits quarter, none, none⟩ =
      some (.natural (quarter.val * 90)) := by
  match quarter with
  | 0 | 1 | 2 | 3 => rfl

/-- A variant as it can be written: the text of its model, and its placement. -/
structure WrittenVariant where
  model : String
  placement : Placement

namespace WrittenVariant

/-- The variant that is meant. -/
def variant (written : WrittenVariant) : Variant :=
  ⟨ResourceId.parse written.model, written.placement⟩

/-- What stands in a file for a variant. -/
def raw (written : WrittenVariant) : RawBinding :=
  .one (RawVariant.ofVariant written.variant)

/-- The members of a variant, written in full. -/
def members (written : WrittenVariant) : List Member :=
  [⟨"model", _, _, Json.Reader.written_quote written.model⟩,
    ⟨"x", _, _, written_degrees written.placement.turns.x⟩,
    ⟨"y", _, _, written_degrees written.placement.turns.y⟩,
    ⟨"uvlock", _, _, Json.Reader.written_boolean written.placement.uvLock⟩]

/-- What the members of a variant are read as. -/
def node (written : WrittenVariant) : Node :=
  .members (written.members.map (fun m => (some m.key, m.node)))

theorem bind_raw (written : WrittenVariant) (id : ResourceId) :
    written.raw.bind id = .ok (.single written.variant) := by
  rw [raw, RawBinding.bind, place_ofVariant]
  rfl

end WrittenVariant

theorem integer32_degrees (depth : Nat) (quarter : Fin 4) :
    Json.Decoder.integer32 depth (degreeNode quarter) = some ((quarter.val * 90 : Nat) : Int) := by
  match quarter with
  | 0 | 1 | 2 | 3 => rfl

namespace WrittenVariant

variable (written : WrittenVariant) {depth : Nat}

theorem decodeVariant_node (deep : depth ≠ 0) :
    decodeVariant depth written.node = some (RawVariant.ofVariant written.variant) := by
  have fields : Json.Decoder.fields ["model", "x", "y", "uvlock", "weight"] depth written.node =
      some (depth - 1, [some (.text (some written.model)),
        some (degreeNode written.placement.turns.x), some (degreeNode written.placement.turns.y),
        some (.boolean written.placement.uvLock), none]) := by
    unfold Json.Decoder.fields node
    dsimp only
    rw [if_neg (by simp [deep, members])]
    rfl
  unfold decodeVariant
  rw [fields]
  dsimp only [Json.Decoder.required, Json.Decoder.withDefault]
  rw [integer32_degrees, integer32_degrees]
  rfl

theorem isSome_value?_node (deep : depth ≠ 0) : (written.node.value? depth).isSome = true := by
  unfold node members
  simp [Json.Node.value?, Json.memberValues?, degreeNode, ofLiteral?_degrees, deep]

theorem decodeBinding_node (deep : depth ≠ 0) :
    decodeBinding depth written.node = some written.raw := by
  have valued : (written.node.value? depth).isNone = false := by
    rw [← Option.not_isSome, written.isSome_value?_node deep]
    rfl
  unfold decodeBinding
  rw [valued, if_neg (by simp), written.decodeVariant_node deep]
  rfl

end WrittenVariant

/-! ## Written files -/

/-- A key with its variant, as a member of the variants of a file. -/
def line (entry : String × WrittenVariant) : Member :=
  ⟨entry.1, _, _, Json.Reader.written_record entry.2.members⟩

/-- The text of a file with these keys and their variants. -/
def spell (entries : List (String × WrittenVariant)) : String :=
  String.ofList (Json.Reader.recordText [("variants",
    Json.Reader.recordText ((entries.map line).map (fun m => (m.key, m.text))))])

theorem decodeVariants_lines (entries : List (String × WrittenVariant)) {depth : Nat}
    (deep : 1 < depth) :
    Json.Decoder.entries some decodeBinding depth
      (.members ((entries.map line).map (fun m => (some m.key, m.node)))) =
        some (entries.map (fun entry => (entry.1, entry.2.raw))) := by
  unfold Json.Decoder.entries
  dsimp only
  rw [if_neg (by omega), List.map_map]
  apply Json.Decoder.each_map
  intro entry _
  have read := entry.2.decodeBinding_node (show depth - 1 ≠ 0 by omega)
  unfold WrittenVariant.node at read
  unfold line
  dsimp only [Function.comp_apply, Option.bind_some]
  rw [read]

/-- A written file is read as its keys with their variants. -/
theorem decode?_spell (entries : List (String × WrittenVariant)) :
    Json.decode? decodeFile (spell entries) =
      some ⟨some (entries.map (fun entry => (entry.1, entry.2.raw))), none⟩ := by
  have parsed : Json.parse (spell entries) = some (.members [(some "variants",
      .members ((entries.map line).map (fun m => (some m.key, m.node))))]) :=
    Json.parse_of_written (Json.Reader.written_record
      [⟨"variants", _, _, Json.Reader.written_record (entries.map line)⟩])
  have fields : Json.Decoder.fields ["variants", "multipart"] Json.depthLimit
      (.members [(some "variants",
        .members ((entries.map line).map (fun m => (some m.key, m.node))))]) =
      some (126, [some (.members ((entries.map line).map (fun m => (some m.key, m.node)))),
        none]) := rfl
  rw [Json.decode?, parsed, Option.bind_some, decodeFile, fields]
  dsimp only [Json.Decoder.withDefault, Json.Decoder.optional]
  rw [decodeVariants_lines entries (by decide)]
  rfl

/-- There is a text that spells any assignment of variants to states. -/
theorem exists_spells (registry : Registry) (states : List StateHandle)
    (assigned : StateHandle → WrittenVariant) :
    ∃ text, Spells registry states (fun state => (assigned state).raw) text := by
  refine ⟨spell (states.filterMap (fun state =>
    (registry.variantKey? state).map (fun key => (key, assigned state)))), _, decode?_spell _, ?_⟩
  intro key raw
  rw [List.mem_map]
  simp only [List.mem_filterMap, Option.map_eq_some_iff]
  constructor
  · rintro ⟨entry, ⟨state, member, key, named, rfl⟩, same⟩
    obtain ⟨rfl, rfl⟩ := Prod.mk.inj same
    exact ⟨state, member, named, rfl⟩
  · rintro ⟨state, member, named, rfl⟩
    exact ⟨_, ⟨state, member, key, named, rfl⟩, rfl⟩

end StateFile

namespace Registry

/-! ## Names and bindings -/

/-- What the keys of a registry are good for: each is read as the properties of
its block with the values of its state, no two states have one name, and for
every assignment of variants to states there are files that spell it, and such
files bind exactly the states of their blocks, each to the variant that it is
assigned, and without a complaint. The same holds of lists of variants and all
else that can stand under a key, as long as it can be bound at all. -/
structure Undone (registry : Registry) : Prop where
  keys : ∀ state < registry.stateCount, ∃ block key pairs,
    registry.blockOf? state = some block ∧ registry.variantKey? state = some key ∧
      StateFile.parseKey? key = some pairs ∧
      pairs.map (fun pair => (pair.1, some pair.2)) = block.properties.map
        (fun property => (property.name, registry.value? state property.name))
  names : ∀ left < registry.stateCount, ∀ right < registry.stateCount,
    registry.stateId? left = registry.stateId? right → left = right
  spelled : ∀ (assigned : StateHandle → StateFile.WrittenVariant) (states : List StateHandle),
    ∃ text, StateFile.Spells registry states (fun state => (assigned state).raw) text
  bound : ∀ (assigned : StateHandle → StateFile.WrittenVariant)
    (files : Table ResourceId String),
    (∀ file ∈ files.toList,
      BindingTable.SpellsBlock registry (fun state => (assigned state).raw) file) →
    BindingTable.Loaded registry (fun state => .single (assigned state).variant)
      (files.toList.map Prod.fst) (BindingTable.load registry files)
  boundAll : ∀ (assigned : StateHandle → StateFile.RawBinding)
    (binding : StateHandle → Binding) (files : Table ResourceId String),
    (∀ state < registry.stateCount, ∀ id, registry.stateId? state = some id →
      (assigned state).bind id.block = .ok (binding state)) →
    (∀ file ∈ files.toList, BindingTable.SpellsBlock registry assigned file) →
    BindingTable.Loaded registry binding (files.toList.map Prod.fst)
      (BindingTable.load registry files)

theorem Enumerated.undone {definitions : List BlockDef} {registry : Registry}
    (enumerated : Enumerated definitions registry) (unambiguous : registry.Unambiguous)
    (legible : registry.Legible) : Undone registry := by
  refine ⟨?keys, ?names, ?spelled, ?bound, ?boundAll⟩
  case keys =>
    intro state known
    obtain ⟨handle, entry, choice, located⟩ := enumerated.exists_located known
    exact ⟨_, _, _, located.blockOf?_eq, located.variantKey?_eq,
      enumerated.parseKey?_eq legible located,
      enumerated.assignment_eq_values unambiguous legible located⟩
  case names =>
    intro left known right known' same
    exact enumerated.eq_of_stateId?_eq legible known known' same
  case spelled =>
    intro assigned states
    exact StateFile.exists_spells _ states assigned
  case bound =>
    intro assigned files spells
    exact BindingTable.loaded_load enumerated unambiguous legible spells
      (fun state _ id _ => (assigned state).bind_raw id.block)
  case boundAll =>
    intro assigned binding files binds spells
    exact BindingTable.loaded_load enumerated unambiguous legible spells binds

/-- **Binding undoes naming.** The keys of every registry whose names and values
are legible are `Undone`, if no block has two properties of one name. -/
theorem undone_ofDefinitions (definitions : List BlockDef)
    (unambiguous : (ofDefinitions definitions).1.Unambiguous)
    (legible : (ofDefinitions definitions).1.Legible) : Undone (ofDefinitions definitions).1 :=
  (enumerated_ofDefinitions definitions).undone unambiguous legible

/-- A block with two properties, given in another order than that of their
names, next to one without properties. -/
theorem undone_furnace :
    let furnace := ((BlockDef.new ⟨"minecraft", "furnace"⟩).withProperty "lit"
      ["false", "true"]).withProperty "facing" ["north", "a=b"]
    let stone := BlockDef.new ⟨"minecraft", "stone"⟩
    (ofDefinitions [furnace, stone]).1.Unambiguous ∧
      (ofDefinitions [furnace, stone]).1.Legible ∧
      Undone (ofDefinitions [furnace, stone]).1 := by
  intro furnace stone
  have unambiguous : (ofDefinitions [furnace, stone]).1.Unambiguous :=
    unambiguous_ofDefinitions (by decide)
  have legible : (ofDefinitions [furnace, stone]).1.Legible :=
    legible_ofDefinitions (by decide)
  exact ⟨unambiguous, legible, undone_ofDefinitions _ unambiguous legible⟩

/-- A block with two properties of one name, each of one value. -/
def twofold : BlockDef :=
  ⟨.inDefaultSpace "lamp", [⟨"a", #["1"]⟩, ⟨"a", #["2"]⟩], .model, none⟩

/-- Where a block has two properties of one name, the name stands for the first
one. What the key says of the second one is met by no state, so a file that gives
the only state of the block a variant under its key leaves it unbound, and without
a complaint. -/
theorem not_undone_twofold :
    let registry := (ofDefinitions [twofold]).1
    let name : StateId := ⟨.inDefaultSpace "lamp", "a=1,a=2"⟩
    let written : StateFile.WrittenVariant := ⟨"lamp", .identity⟩
    let files := Table.ofPairs [(name.block, StateFile.spell [("a=1,a=2", written)])]
    registry.Legible ∧ registry.stateCount = 1 ∧ registry.stateId? 0 = some name ∧
      (∀ file ∈ files.toList,
        BindingTable.SpellsBlock registry (fun _ => written.raw) file) ∧
      (BindingTable.load registry files).1[name]? = none ∧
      (BindingTable.load registry files).2 = [] ∧ ¬ Undone registry := by
  intro registry name written files
  have legible : registry.Legible := legible_ofDefinitions (by decide)
  have isRegistry : registry = ([twofold].foldl stepPlace (empty, [])).1 := by
    have arranged : ∀ definition ∈ [twofold], Arranged definition := by decide +kernel
    exact congrArg Prod.fst (ofDefinitions_of_arranged arranged)
  have listed : files.toList = [(name.block, StateFile.spell [("a=1,a=2", written)])] := by
    decide +kernel
  obtain ⟨counted, named, owned, states, keyed⟩ : registry.stateCount = 1 ∧
      registry.stateId? 0 = some name ∧ registry.blockOfId? name.block = some 0 ∧
      registry.statesOf 0 = [0] ∧ registry.variantKey? 0 = some "a=1,a=2" := by
    rw [isRegistry]
    decide +kernel
  obtain ⟨unbound, quiet⟩ : (BindingTable.load registry files).1[name]? = none ∧
      (BindingTable.load registry files).2 = [] := by
    rw [isRegistry]
    decide +kernel
  have spells : ∀ file ∈ files.toList,
      BindingTable.SpellsBlock registry (fun _ => written.raw) file := by
    intro file member handle owns
    rw [listed, List.mem_singleton] at member
    subst member
    obtain rfl : 0 = handle := Option.some.inj (owned.symm.trans owns)
    refine ⟨_, StateFile.decode?_spell _, ?_⟩
    intro key raw
    rw [states]
    simp [keyed, eq_comm]
  refine ⟨legible, counted, named, spells, unbound, quiet, ?_⟩
  intro undone
  have bound := (undone.bound (fun _ => written) files spells).bound name (.single written.variant)
  rw [unbound, listed, counted] at bound
  exact absurd (bound.mpr ⟨List.mem_singleton_self _, 0, Nat.one_pos, named, rfl⟩) (by simp)

end Registry

namespace InferredBlocks

/-- The keys of the registry of a pack are `Undone` if its names and values are
legible: no block of it has two properties of one name. -/
theorem undone_registry (settings : Settings) (files : Table ResourceId String)
    (legible : (registry settings files).1.Legible) :
    Registry.Undone (registry settings files).1 := by
  obtain ⟨definitions, grown, same⟩ := exists_grown settings files
  rw [same] at legible ⊢
  have unambiguous := Registry.unambiguous_ofDefinitions
    (fun definition listed => (grown definition listed).nodup)
  exact (Registry.enumerated_ofDefinitions definitions).undone unambiguous legible

end InferredBlocks

end PackModels
