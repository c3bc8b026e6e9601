import PackModels.Proofs.Binding.Apart
import PackModels.Proofs.Binding.Usable
import PackModels.Proofs.Block.Layout

/-!
Contract: the block that is inferred from a state file fits the file.

Every property that a file mentions is mentioned with a value, so the block has
all of them, and nothing in the file asks for more. The states of the block are
the choices of a mentioned value for each mentioned property. A variant that
does not ask for two values of one property leaves a choice open and is met by a
state of it, and where the file has parts, no state is left without a binding.

Owns: `Spoken`, that conditions mention values, and `Fits`, what holds of the
registry of an inferred block.

Does not own: what a file mentions (`StateFile.Speaks`).
-/

namespace PackModels

namespace Condition

variable {id : ResourceId}

/-- Whether each property that a condition mentions has a value with it. -/
def Spoken (condition : Condition) : Prop :=
  ∀ mention ∈ condition.mentions, mention.2 ≠ []

/-- The text of a property has at least one alternative. -/
theorem spoken_ofProperty {name : String} {value : Json.Value} {condition : Condition}
    (parsed : ofProperty id name value = .ok condition) : condition.Spoken := by
  obtain ⟨text, negate, values, _, asks, rfl⟩ := ofProperty_eq_ok_iff.mp parsed
  intro mention member
  rw [List.mem_singleton.mp member]
  cases asks with
  | among _ alternatives => exact alternatives.given
  | besides alternatives => exact alternatives.given

/-- Conditions that mention values do so together. -/
theorem spoken_mentionsOf {terms : List Condition} (spoken : ∀ term ∈ terms, term.Spoken) :
    ∀ mention ∈ mentionsOf terms, mention.2 ≠ [] := by
  intro mention member
  obtain ⟨term, listed, mentioned⟩ := mem_mentionsOf_iff.mp member
  exact spoken term listed mention mentioned

theorem mentions_conjunction (terms : List Condition) :
    (conjunction terms).mentions = mentionsOf terms := by
  unfold conjunction
  split
  · rw [mentionsOf, mentionsOf, List.append_nil]
  · rw [mentions]

theorem spoken_parse (value : Json.Value) {condition : Condition}
    (parsed : parse id value = .ok condition) : condition.Spoken := by
  rcases parse_eq_ok_iff.mp parsed with ⟨items, terms, isTerms, written⟩ |
    ⟨members, terms, rfl, _, isTerms, rfl⟩
  · have back := (exists_of_forall₂ (parseAll_eq_ok_iff.mp isTerms)).2
    rcases written with ⟨rfl, rfl⟩ | ⟨rfl, rfl⟩
    · apply spoken_mentionsOf
      intro term listed
      obtain ⟨item, _, isTerm⟩ := back term listed
      exact spoken_parse item isTerm
    · apply spoken_mentionsOf
      intro term listed
      obtain ⟨item, _, isTerm⟩ := back term listed
      exact spoken_parse item isTerm
  · rw [Spoken, mentions_conjunction]
    apply spoken_mentionsOf
    intro term listed
    obtain ⟨member, _, isTerm⟩ :=
      (exists_of_forall₂ (ofProperties_eq_ok_iff.mp isTerms)).2 term listed
    exact spoken_ofProperty isTerm
termination_by sizeOf value

end Condition

namespace StateFile

variable {file : StateFile} {id : ResourceId} {text : String}

/-! ## What a file that is read mentions -/

theorem spoken_readCondition {raw : RawPart} {condition : Condition}
    (read : raw.readCondition id = .ok condition) : condition.Spoken := by
  unfold RawPart.readCondition at read
  split at read
  · exact Condition.spoken_parse _ read
  · rw [← Except.ok.inj read]
    exact fun _ member => absurd member List.not_mem_nil

/-- Whatever a file mentions, it mentions with a value. -/
theorem spoken_of_parse (parsed : StateFile.parse id text = .ok file) :
    ∀ mention ∈ file.mentions, mention.2 ≠ [] := by
  obtain ⟨raw, _, isParts⟩ := read_of_parse parsed
  intro mention member
  rcases List.mem_append.mp member with inVariant | inPart
  · obtain ⟨variant, _, isDemand⟩ := List.mem_flatMap.mp inVariant
    obtain ⟨demand, _, rfl⟩ := List.mem_map.mp isDemand
    exact List.cons_ne_nil demand.2 []
  · obtain ⟨part, isPart, mentioned⟩ := List.mem_flatMap.mp inPart
    obtain ⟨written, _, read, _⟩ :=
      (exists_of_forall₂ (readParts_eq_ok_iff.mp isParts)).2 part isPart
    exact spoken_readCondition read mention mentioned

theorem speaks_of_demand {variant : StateVariant} (listed : variant ∈ file.variants)
    {demand : String × String} (demanded : demand ∈ variant.demands) :
    file.Speaks demand.1 demand.2 := by
  have mentioned : (demand.1, [demand.2]) ∈ file.mentions :=
    List.mem_append_left _ (List.mem_flatMap.mpr ⟨variant, listed, List.mem_map_of_mem demanded⟩)
  exact ⟨_, mentioned, rfl, List.mem_singleton_self demand.2⟩

/-! ## The block of a file -/

section Block

/-- The block has the properties that are mentioned. -/
theorem exists_property_iff (parsed : StateFile.parse id text = .ok file) {name : String} :
    (∃ property ∈ (file.inferBlock id).properties, property.name = name) ↔
      ∃ value, file.Speaks name value := by
  have mentioned : name ∈ file.mentioned ↔ ∃ mention ∈ file.mentions, mention.1 = name := by
    rw [mentioned_eq, mem_foldl_addMention]
    simp
  have listed : (∃ property ∈ (file.inferBlock id).properties, property.name = name) ↔
      name ∈ file.mentioned := by
    rw [inferBlock_eq, BlockDef.plain, Std.ExtTreeMap.mem_iff_isSome_getElem?,
      Option.isSome_iff_exists]
    simp [mentionedProperty]
  rw [listed, mentioned]
  constructor
  · rintro ⟨mention, member, rfl⟩
    obtain ⟨value, rest, same⟩ := List.exists_cons_of_ne_nil (spoken_of_parse parsed mention member)
    exact ⟨value, mention, member, rfl, same ▸ List.mem_cons_self⟩
  · rintro ⟨value, mention, member, rfl, _⟩
    exact ⟨mention, member, rfl⟩

theorem nodup_inferBlock (file : StateFile) (id : ResourceId) :
    ((file.inferBlock id).properties.map Property.name).Nodup :=
  (file.grown_inferBlock id).nodup

/-- The properties of the block are in order, and each has a value. -/
theorem arranged_inferBlock (parsed : StateFile.parse id text = .ok file) :
    Registry.Arranged (file.inferBlock id) := by
  constructor
  · intro property member
    obtain ⟨value, speaks⟩ := (exists_property_iff parsed).mp ⟨property, member, rfl⟩
    have isValue := (mem_values_iff member).mpr speaks
    rw [Array.isEmpty_eq_false_iff_exists_mem]
    exact ⟨value, isValue⟩
  · rw [inferBlock_eq, BlockDef.plain]
    apply List.Pairwise.map _ _ file.mentioned.ordered_keys_toList
    intro left right before
    rw [Registry.propertyOrder, mentionedProperty, mentionedProperty, before]
    rfl

/-- Nothing in the file asks for a property that the block does not have. -/
theorem hasProperty_of_speaks (parsed : StateFile.parse id text = .ok file) {name value : String}
    (speaks : file.Speaks name value) : (file.inferBlock id).HasProperty name :=
  (exists_property_iff parsed).mpr ⟨value, speaks⟩

theorem usableVariant_of_parse (parsed : StateFile.parse id text = .ok file) :
    ∀ variant ∈ file.variants, UsableVariant (file.inferBlock id) variant := by
  intro variant listed demand demanded
  exact hasProperty_of_speaks parsed (speaks_of_demand listed demanded)

theorem usablePart_of_parse (parsed : StateFile.parse id text = .ok file) :
    ∀ part ∈ file.parts, UsablePart (file.inferBlock id) part := by
  intro part listed name mentions
  obtain ⟨mention, inCondition, rfl⟩ := part.condition.mentions_iff.mp mentions
  have mentioned : mention ∈ file.mentions :=
    List.mem_append_right _ (List.mem_flatMap.mpr ⟨part, listed, inCondition⟩)
  obtain ⟨value, rest, same⟩ :=
    List.exists_cons_of_ne_nil (spoken_of_parse parsed mention mentioned)
  exact hasProperty_of_speaks parsed ⟨mention, mentioned, rfl, same ▸ List.mem_cons_self⟩

end Block

/-! ## The registry of the block -/

/-- The registry of the block that is inferred from a file. -/
def inferredRegistry (file : StateFile) (id : ResourceId) : Registry :=
  (Registry.ofDefinitions [file.inferBlock id]).1

section Inferred

variable (parsed : StateFile.parse id text = .ok file)
  (few : ∀ entry ∈ file.mentioned.toList, entry.2.size ≤ Registry.positionLimit)

theorem enumerated_inferred (file : StateFile) (id : ResourceId) :
    Registry.Enumerated [file.inferBlock id] (file.inferredRegistry id) :=
  Registry.enumerated_ofDefinitions _

include parsed in
theorem definitions_inferred :
    (file.inferredRegistry id).definitions = [file.inferBlock id] := by
  have alone : Registry.firsts [file.inferBlock id] = [file.inferBlock id] := rfl
  rw [inferredRegistry, Registry.definitions_ofDefinitions, alone, List.map_singleton,
    Registry.arrange_of_arranged (arranged_inferBlock parsed)]

include parsed in
theorem exists_owner_inferred : ∃ entry, (file.inferredRegistry id).blocks[0]? = some entry ∧
    entry.definition = file.inferBlock id := by
  obtain ⟨entry, blocks, isBlock⟩ := List.map_eq_singleton_iff.mp (definitions_inferred parsed)
  refine ⟨entry, ?_, isBlock⟩
  rw [← Array.getElem?_toList, blocks, List.getElem?_cons_zero]

include parsed in
/-- All states are those of the one block. -/
theorem statesOf_inferred : (file.inferredRegistry id).statesOf 0 =
    List.range (file.inferredRegistry id).stateCount := by
  have inOrder : (List.range (file.inferredRegistry id).blockCount).flatMap
      (file.inferredRegistry id).statesOf = (file.inferredRegistry id).handles :=
    Registry.flatMap_statesOf [file.inferBlock id]
  have one : (file.inferredRegistry id).blockCount = 1 := by
    have lengths := congrArg List.length (definitions_inferred parsed)
    rwa [Registry.definitions, List.length_map, Array.length_toList] at lengths
  rwa [one, List.range_one, List.flatMap_singleton] at inOrder

include few in
theorem few_inferred : (file.inferredRegistry id).Few := by
  apply Registry.few_ofDefinitions
  simp only [List.forall_mem_singleton, inferBlock_eq, BlockDef.plain, List.forall_mem_map]
  intro entry listed
  rw [mentionedProperty, List.size_toArray, Std.ExtTreeSet.length_toList]
  exact few entry listed

include parsed few in
/-- A choice of a mentioned value for each mentioned property is that of one
state. -/
theorem existsUnique_inferred {values : String → String}
    (chosen : ∀ name value, file.Speaks name value → file.Speaks name (values name)) :
    ∃! state, state < (file.inferredRegistry id).stateCount ∧
      ∀ name value, file.Speaks name value →
        (file.inferredRegistry id).value? state name = some (values name) := by
  obtain ⟨entry, owner, isBlock⟩ := exists_owner_inferred parsed
  have listed : ∀ property ∈ entry.definition.properties,
      values property.name ∈ property.values := by
    rw [isBlock]
    intro property member
    obtain ⟨value, speaks⟩ := (exists_property_iff parsed).mp ⟨property, member, rfl⟩
    exact (mem_values_iff member).mpr (chosen property.name value speaks)
  have agree : ∀ state, (∀ property ∈ entry.definition.properties,
      (file.inferredRegistry id).value? state property.name = some (values property.name)) ↔
        ∀ name value, file.Speaks name value →
          (file.inferredRegistry id).value? state name = some (values name) := by
    intro state
    rw [isBlock]
    constructor
    · intro has name value speaks
      obtain ⟨property, member, rfl⟩ := (exists_property_iff parsed).mpr ⟨value, speaks⟩
      exact has property member
    · intro has property member
      obtain ⟨value, speaks⟩ := (exists_property_iff parsed).mp ⟨property, member, rfl⟩
      exact has property.name value speaks
  have unique := (enumerated_inferred file id).existsUnique_values (few_inferred few) owner
    (isBlock ▸ nodup_inferBlock file id) (isBlock ▸ nodup_values) listed
  simpa only [statesOf_inferred parsed, List.mem_range, agree] using unique

end Inferred

/-! ## Variants and parts -/

/-- Whether a variant does not ask for two values of one property. -/
def Consistent (variant : StateVariant) : Prop :=
  ∀ first ∈ variant.demands, ∀ second ∈ variant.demands, first.1 = second.1 → first.2 = second.2

/-- The demands of a consistent variant can be completed to a choice. -/
theorem exists_values {variant : StateVariant} (listed : variant ∈ file.variants)
    (consistent : Consistent variant) : ∃ values : String → String,
      (∀ name value, file.Speaks name value → file.Speaks name (values name)) ∧
        ∀ demand ∈ variant.demands, values demand.1 = demand.2 := by
  have each : ∀ name, ∃ chosen, (∀ value, file.Speaks name value → file.Speaks name chosen) ∧
      ∀ demand ∈ variant.demands, demand.1 = name → chosen = demand.2 := by
    intro name
    by_cases demanded : ∃ demand ∈ variant.demands, demand.1 = name
    · obtain ⟨demand, member, rfl⟩ := demanded
      exact ⟨demand.2, fun _ _ => speaks_of_demand listed member,
        fun other member' same => consistent demand member other member' same.symm⟩
    · by_cases spoken : ∃ value, file.Speaks name value
      · obtain ⟨value, speaks⟩ := spoken
        exact ⟨value, fun _ _ => speaks,
          fun demand member same => absurd ⟨demand, member, same⟩ demanded⟩
      · exact ⟨"", fun value speaks => absurd ⟨value, speaks⟩ spoken,
          fun demand member same => absurd ⟨demand, member, same⟩ demanded⟩
  choose values chosen agrees using each
  exact ⟨values, chosen, fun demand member => agrees demand.1 demand member rfl⟩

/-- With parts, every state that is asked for is bound. -/
theorem exists_bound (parsed : StateFile.parse id text = .ok file) (given : file.parts ≠ [])
    (registry : Registry) {states : List StateHandle} {state : StateHandle}
    (listed : state ∈ states) :
    ∃ binding, (state, binding) ∈ file.bind registry (file.inferBlock id) states := by
  have isBound : (bindState? registry file.variants file.parts state).isSome = true := by
    unfold bindState?
    split
    · rfl
    · rw [if_neg (by simpa using given)]
      rfl
  obtain ⟨binding, binds⟩ := Option.isSome_iff_exists.mp isBound
  refine ⟨binding, ?_⟩
  rw [bind, usableVariants_eq_self (usableVariant_of_parse parsed),
    usableParts_eq_self (usablePart_of_parse parsed), List.mem_filterMap]
  exact ⟨state, listed, by rw [binds, Option.map_some]⟩

/-- What holds of a file and of the registry of the block that is inferred from
it. -/
structure Fits (file : StateFile) (id : ResourceId) (registry : Registry) : Prop where
  only : registry.definitions = [file.inferBlock id]
  all : registry.statesOf 0 = List.range registry.stateCount
  warnings : file.warnings id (file.inferBlock id) = []
  variants : file.usableVariants (file.inferBlock id) = file.variants
  parts : file.usableParts (file.inferBlock id) = file.parts
  has : ∀ state < registry.stateCount, ∀ name,
    (registry.value? state name).isSome = true ↔ ∃ value, file.Speaks name value
  spoken : ∀ state < registry.stateCount, ∀ name value,
    registry.value? state name = some value → file.Speaks name value
  unique : ∀ values : String → String,
    (∀ name value, file.Speaks name value → file.Speaks name (values name)) →
      ∃! state, state < registry.stateCount ∧
        ∀ name value, file.Speaks name value → registry.value? state name = some (values name)
  met : ∀ variant ∈ file.variants, Consistent variant →
    ∃ state < registry.stateCount, meets registry state variant = true
  bound : file.parts ≠ [] → ∀ state < registry.stateCount, ∃ binding,
    (state, binding) ∈ file.bind registry (file.inferBlock id) (registry.statesOf 0)

/-- Every file that can be read fits the registry of the block that is inferred
from it, if no property has more values than can be stored. -/
theorem fits_of_parse (id : ResourceId) (text : String) (file : StateFile)
    (parsed : StateFile.parse id text = .ok file)
    (few : ∀ entry ∈ file.mentioned.toList, entry.2.size ≤ Registry.positionLimit) :
    Fits file id (Registry.ofDefinitions [file.inferBlock id]).1 := by
  change Fits file id (file.inferredRegistry id)
  have enumerated := enumerated_inferred file id
  obtain ⟨entry, owner, isBlock⟩ := exists_owner_inferred parsed
  have all := statesOf_inferred parsed
  have located : ∀ state < (file.inferredRegistry id).stateCount, ∃ choice,
      Registry.Located (file.inferredRegistry id) state 0 entry choice := by
    intro state known
    rw [← List.mem_range, ← all] at known
    exact (enumerated.mem_statesOf_iff owner).mp known
  have variants := usableVariant_of_parse parsed
  have parts := usablePart_of_parse parsed
  refine ⟨definitions_inferred parsed, all, warnings_eq_nil_of_usable id variants parts,
    usableVariants_eq_self variants, usableParts_eq_self parts, ?has, ?spoken,
    fun values => existsUnique_inferred parsed few, ?met, ?bound⟩
  case has =>
    intro state known name
    obtain ⟨choice, located⟩ := located state known
    have apart : (entry.definition.properties.map Property.name).Nodup :=
      isBlock ▸ nodup_inferBlock file id
    rw [(enumerated.answers (few_inferred few) apart located).value, isBlock,
      exists_property_iff parsed]
  case spoken =>
    intro state known name value has
    obtain ⟨choice, located⟩ := located state known
    rw [located.value?_eq, isBlock] at has
    obtain ⟨property, member, rfl, isValue⟩ := Registry.mem_of_chosen? has
    exact (mem_values_iff member).mp isValue
  case met =>
    intro variant listed consistent
    obtain ⟨values, chosen, agrees⟩ := exists_values listed consistent
    obtain ⟨state, ⟨known, has⟩, _⟩ := existsUnique_inferred parsed few chosen
    refine ⟨state, known, ?_⟩
    rw [meets, List.all_eq_true]
    intro demand member
    rw [has demand.1 demand.2 (speaks_of_demand listed member), agrees demand member]
    exact beq_self_eq_true _
  case bound =>
    intro given state known
    rw [← List.mem_range, ← all] at known
    exact exists_bound parsed given _ known

/-- A wire with a variant and two parts, one of which is drawn where either of
two conditions holds. -/
def wire : String :=
  let one := "\x7b\"north=up,lit=yes\":\x7b\"model\":\"wire\"\x7d\x7d"
  let either := "\x7b\"OR\":[\x7b\"north\":\"side|up\"\x7d,\x7b\"power\":\"0\"\x7d]\x7d"
  let dot := "\x7b\"when\":" ++ either ++ ",\"apply\":\x7b\"model\":\"dot\"\x7d\x7d"
  let hot := "\x7b\"when\":\x7b\"power\":\"!15\"\x7d,\"apply\":\x7b\"model\":\"hot\"\x7d\x7d"
  "\x7b\"variants\":" ++ one ++ ",\"multipart\":[" ++ dot ++ "," ++ hot ++ "]\x7d"

/-- The wire is read, and it fits. -/
theorem fits_of_parse_wire :
    let id := ResourceId.inDefaultSpace "wire"
    ∃ file, StateFile.parse id wire = .ok file ∧
      (∀ entry ∈ file.mentioned.toList, entry.2.size ≤ Registry.positionLimit) ∧
      file.variants.length = 1 ∧ file.parts.length = 2 ∧ file.mentioned.size = 3 ∧
      Fits file id (Registry.ofDefinitions [file.inferBlock id]).1 := by
  intro id
  have read : (StateFile.parse id wire).toOption.isSome = true := by
    decide +kernel
  have small : ∀ file ∈ (StateFile.parse id wire).toOption,
      (∀ entry ∈ file.mentioned.toList, entry.2.size ≤ Registry.positionLimit) ∧
        file.variants.length = 1 ∧ file.parts.length = 2 ∧ file.mentioned.size = 3 := by
    decide +kernel
  obtain ⟨file, isFile⟩ := Option.isSome_iff_exists.mp read
  obtain ⟨few, variants, parts, names⟩ := small file isFile
  have parsed := toOption_eq_some_iff.mp isFile
  exact ⟨file, parsed, few, variants, parts, names, fits_of_parse id wire file parsed few⟩

end StateFile

end PackModels
