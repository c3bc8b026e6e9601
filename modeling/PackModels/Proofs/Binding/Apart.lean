import PackModels.Proofs.Binding.Lookup
import PackModels.Proofs.Binding.Reading
import PackModels.Proofs.Block.Inferred

/-!
Contract: when no state of a pack without a list of blocks takes the binding of
another one.

A pack like this has the values that its state files mention. The variants of a
file mention no value with the mark between properties, as their keys are cut at
it, and neither are there any among the levels of fluids. The conditions of
parts are not cut. Where they mention no such value either, and no property has
more values than can be stored, no two states have one name, and each state is
bound to what the file of its block says about this very state.

Owns: `Unseparated`, which files have no such value in a condition, and
`FewValues`, which have few enough of them.
-/

namespace PackModels

namespace StateFile

/-! ## The values of keys -/

theorem unseparated_parseDemand? {text : String} {pair : String × String}
    (parsed : parseDemand? text = some pair) (absent : ',' ∉ text.toList) :
    ',' ∉ pair.2.toList := by
  unfold parseDemand? at parsed
  obtain ⟨cut, _⟩ := Option.filter_eq_some_iff.mp parsed
  unfold Text.cut? at cut
  rw [Option.map_eq_some_iff] at cut
  obtain ⟨parts, cuts, rfl⟩ := cut
  rw [(Text.cutAt_eq_some_iff.mp cuts).2] at absent
  rw [String.toList_ofList]
  intro member
  exact absent (List.mem_append_right _ (List.mem_cons_of_mem _ member))

/-- A key is cut at the mark between properties, so no value contains it. -/
theorem unseparated_parseKey? {key : String} {demands : List (String × String)}
    (parsed : parseKey? key = some demands) {demand : String × String}
    (member : demand ∈ demands) : ',' ∉ demand.2.toList := by
  unfold parseKey? at parsed
  split at parsed
  · rw [Option.some.injEq] at parsed
    rw [← parsed] at member
    cases member
  · obtain ⟨text, piece, demanded⟩ := Json.Decoder.exists_of_mem_each parsed member
    exact unseparated_parseDemand? demanded (Text.notMem_of_mem_split piece)

/-! ## Files without the mark -/

/-- Whether no condition of a file mentions a value with the mark between
properties. -/
def Unseparated (file : StateFile) : Prop :=
  ∀ part ∈ file.parts, ∀ mention ∈ part.condition.mentions, ∀ value ∈ mention.2,
    ',' ∉ value.toList

instance (file : StateFile) : Decidable file.Unseparated :=
  inferInstanceAs (Decidable (∀ part ∈ file.parts, ∀ mention ∈ part.condition.mentions,
    ∀ value ∈ mention.2, ',' ∉ value.toList))

theorem unseparated_mentions {id : ResourceId} {text : String} {file : StateFile}
    (parsed : StateFile.parse id text = .ok file) (unseparated : file.Unseparated) :
    ∀ mention ∈ file.mentions, ∀ value ∈ mention.2, ',' ∉ value.toList := by
  intro mention member value listed
  rcases List.mem_append.mp member with inVariant | inPart
  · obtain ⟨variant, isVariant, isDemand⟩ := List.mem_flatMap.mp inVariant
    obtain ⟨demand, demanded, rfl⟩ := List.mem_map.mp isDemand
    rw [List.mem_singleton.mp listed]
    exact unseparated_parseKey? (parseKey?_of_parse parsed isVariant) demanded
  · obtain ⟨part, isPart, mentioned⟩ := List.mem_flatMap.mp inPart
    exact unseparated part isPart mention mentioned value listed

/-- The properties that a file mentions are clean, if its conditions are. -/
theorem clean_inferBlock {id : ResourceId} {text : String} {file : StateFile}
    (parsed : StateFile.parse id text = .ok file) (unseparated : file.Unseparated) :
    ∀ property ∈ (file.inferBlock id).properties, property.Clean := by
  intro property member
  refine ⟨?_, nodup_values property member⟩
  intro value listed
  obtain ⟨mention, mentioned, _, inMention⟩ := (mem_values_iff member).mp listed
  exact unseparated_mentions parsed unseparated mention mentioned value inMention

end StateFile

/-! ## Definitions with clean properties -/

namespace BlockDef

/-- Clean values that are merged into clean properties leave them clean. -/
theorem clean_mergeProperty {name : String} {values : List String}
    (added : Property.Clean ⟨name, values.toArray⟩) {properties : List Property}
    (clean : ∀ property ∈ properties, property.Clean) :
    ∀ property ∈ mergeProperty name values properties, property.Clean := by
  induction properties with
  | nil =>
      intro property member
      rw [List.mem_singleton.mp member]
      exact added
  | cons first rest inductionHypothesis =>
      have cleanFirst := clean first List.mem_cons_self
      have cleanRest : ∀ property ∈ rest, property.Clean :=
        fun property member => clean property (List.mem_cons_of_mem first member)
      rw [mergeProperty]
      by_cases same : first.name = name
      · rw [if_pos same, List.forall_mem_cons]
        refine ⟨⟨?unseparated, nodup_addValues cleanFirst.distinct⟩, cleanRest⟩
        intro value member
        rcases mem_addValues.mp member with before | later
        · exact cleanFirst.unseparatedValues value before
        · exact added.unseparatedValues value (List.mem_toArray.mpr later)
      · rw [if_neg same, List.forall_mem_cons]
        exact ⟨cleanFirst, inductionHypothesis cleanRest⟩

end BlockDef

namespace InferredBlocks

theorem clean_levels : Property.Clean ⟨"level", levels.toArray⟩ :=
  ⟨by decide, by decide⟩

/-- The levels of a fluid are as clean as all other values. -/
theorem clean_adjust (settings : Settings) {block : BlockDef}
    (clean : ∀ property ∈ block.properties, property.Clean) :
    ∀ property ∈ (adjust settings block).properties, property.Clean := by
  rw [properties_adjust]
  cases settings.fluidKind? block.id with
  | none => exact clean
  | some kind => exact BlockDef.clean_mergeProperty clean_levels clean

theorem clean_mentioned {id : ResourceId} {text : String}
    (unseparated : ∀ file, StateFile.parse id text = .ok file → file.Unseparated) :
    ∀ property ∈ (mentioned id text).1.properties, property.Clean := by
  unfold mentioned
  cases parsed : StateFile.parse id text with
  | error error =>
      intro property member
      cases member
  | ok file => exact StateFile.clean_inferBlock parsed (unseparated file parsed)

/-- The blocks that only the settings name have no properties but levels. -/
theorem separable_named (settings : Settings) {definition : BlockDef}
    (listed : definition ∈ named settings) :
    ∀ property ∈ definition.properties, property.Separable := by
  rcases List.mem_append.mp listed with invisible | fluid
  · obtain ⟨name, _, rfl⟩ := List.mem_map.mp invisible
    intro property member
    cases member
  · obtain ⟨entry, _, rfl⟩ := List.mem_map.mp fluid
    intro property member
    rw [List.mem_singleton.mp member]
    exact ⟨clean_levels, by decide⟩

/-- Whether no condition of a file that can be read mentions a value with the
mark between properties. -/
def Unseparated (files : Table ResourceId String) : Prop :=
  ∀ entry ∈ files.toList, ∀ file ∈ (StateFile.parse entry.1 entry.2).toOption, file.Unseparated

/-- Whether the values that are mentioned with a property, and the levels of a
fluid with those of its file, are few enough to be stored. -/
def FewValues (settings : Settings) (files : Table ResourceId String) : Prop :=
  ∀ entry ∈ files.toList, ∀ property ∈ (adjust settings (mentioned entry.1 entry.2).1).properties,
    property.values.size ≤ 65536

theorem separable_registry {settings : Settings} {files : Table ResourceId String}
    (unseparated : Unseparated files) (few : FewValues settings files) :
    (registry settings files).1.Separable := by
  rw [registry_eq]
  apply Registry.properties_ofDefinitions
  intro definition listed property isOne
  rcases List.mem_append.mp listed with read | isNamed
  · obtain ⟨file, isFile, rfl⟩ := List.mem_map.mp read
    have cleanFile := clean_mentioned (fun found parsed =>
      unseparated file isFile found (toOption_eq_some_iff.mpr parsed))
    exact ⟨clean_adjust settings cleanFile property isOne, few file isFile property isOne⟩
  · exact separable_named settings isNamed property isOne

/-- Where no condition mentions a value with the mark between properties and
no property has too many values, no two states of a pack have one name, and what
is loaded under the name of a state is what the file of its block binds this
state to. -/
theorem bindings_apart (settings : Settings) (files : Table ResourceId String)
    (unseparated : Unseparated files) (few : FewValues settings files) :
    (∀ state < (registry settings files).1.stateCount,
      ∀ other < (registry settings files).1.stateCount,
        (registry settings files).1.stateId? state = (registry settings files).1.stateId? other →
          state = other) ∧
    ∀ state id, (registry settings files).1.stateId? state = some id →
      (BindingTable.load (registry settings files).1 files).1[id]? =
        BindingTable.ownBinding? (registry settings files).1 files state := by
  have enumerated : Registry.Enumerated _ (registry settings files).1 :=
    Registry.enumerated_ofDefinitions _
  have separable := separable_registry unseparated few
  refine ⟨fun state known other known' => enumerated.unique_stateId? separable known known', ?_⟩
  intro state id isNamed
  refine BindingTable.getElem?_load_of_unique enumerated ?unique files isNamed
  intro left right name isLeft isRight
  exact enumerated.unique_stateId? separable (Registry.known_of_stateId? isLeft)
    (Registry.known_of_stateId? isRight) (isLeft.trans isRight.symm)

/-- A pack of a lamp with properties `a` and `b`. One part is drawn where `a` is 1
and `b` is 2 or the second value, and another one where `a` is the first value. -/
def lamp (first second : String) : Table ResourceId String :=
  let one := "\x7b\"when\":\x7b\"a\":\"1\",\"b\":\"2|" ++ second ++
    "\"\x7d,\"apply\":\x7b\"model\":\"one\"\x7d\x7d"
  let two := "\x7b\"when\":\x7b\"a\":\"" ++ first ++
    "\"\x7d,\"apply\":\x7b\"model\":\"two\"\x7d\x7d"
  Table.ofPairs
    [(.inDefaultSpace "lamp", "\x7b\"multipart\":[" ++ one ++ "," ++ two ++ "]\x7d")]

/-- Values with other marks keep the states of a lamp apart. -/
theorem bindings_apart_lamp :
    let files := lamp "1;b=2" "2;b=2"
    let states := (registry .default files).1
    Unseparated files ∧ FewValues .default files ∧
      ∀ state id, states.stateId? state = some id →
        (BindingTable.load states files).1[id]? =
          BindingTable.ownBinding? states files state := by
  intro files states
  have unseparated : Unseparated (lamp "1;b=2" "2;b=2") := by
    unfold Unseparated
    decide +kernel
  have few : FewValues .default (lamp "1;b=2" "2;b=2") := by
    unfold FewValues
    decide +kernel
  exact ⟨unseparated, few, (bindings_apart .default files unseparated few).2⟩

/-- With the mark between properties in their values, two states of a lamp have
one name, and one of them takes what the other one is bound to. -/
theorem bindings_collide_lamp :
    let files := lamp "1,b=2" "2,b=2"
    let states := (registry .default files).1
    let name : StateId := ⟨.inDefaultSpace "lamp", "a=1,b=2,b=2"⟩
    FewValues .default files ∧ 2 < states.stateCount ∧
      states.stateId? 1 = some name ∧ states.stateId? 2 = some name ∧
      (BindingTable.load states files).1[name]? ≠ BindingTable.ownBinding? states files 1 := by
  have arranged : ∀ definition ∈ definitions .default (lamp "1,b=2" "2,b=2"),
      Registry.Arranged definition := by
    decide +kernel
  dsimp only
  rw [registry_eq, Registry.ofDefinitions_of_arranged arranged]
  unfold FewValues
  decide +kernel

end InferredBlocks

end PackModels
