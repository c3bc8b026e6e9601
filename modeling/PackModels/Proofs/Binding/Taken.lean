import PackModels.Proofs.Binding.Lookup
import PackModels.Proofs.Binding.Reading
import PackModels.Proofs.Binding.Usable
import PackModels.Proofs.Bytes

/-!
Contract: what a state takes of the file of its block.

`Takes` says what a state takes of the entries that its block can use: the variant
with the least key among those that it meets, or else all parts that hold for it,
if there are usable parts at all. An entry that is not usable counts for nothing
but one warning.

Owns: `Takes` and `Binds`.

Does not own: which states a condition holds for.
-/

namespace PackModels

namespace StateFile

variable {block : BlockDef}

/-! ## What a state takes -/

/-- A variant can be used, and a state has all the values it asks for. -/
structure Suits (registry : Registry) (block : BlockDef) (state : StateHandle)
    (variant : StateVariant) : Prop where
  usable : UsableVariant block variant
  met : ∀ demand ∈ variant.demands, registry.value? state demand.1 = some demand.2

/-- What a state takes of the entries of a file. -/
inductive Takes (file : StateFile) (registry : Registry) (block : BlockDef)
    (state : StateHandle) : Binding → Prop
  | variant {variant : StateVariant} (listed : variant ∈ file.variants)
      (suits : Suits registry block state variant)
      (least : ∀ other ∈ file.variants, Suits registry block state other →
        other = variant ∨ Text.bytes variant.key < Text.bytes other.key) :
      Takes file registry block state variant.binding
  | parts (free : ∀ variant ∈ file.variants, ¬ Suits registry block state variant)
      (some : ∃ part ∈ file.parts, UsablePart block part) :
      Takes file registry block state
        (.composite ((file.parts.filter (fun part =>
          UsablePart block part ∧ part.condition.test registry state)).map StatePart.binding))

section Takes

variable {id : ResourceId} {text : String} {file : StateFile} {registry : Registry}
  {state : StateHandle}

theorem suits_iff {variant : StateVariant} :
    ((unknownDemand? block variant).isNone = true ∧ meets registry state variant = true) ↔
      Suits registry block state variant := by
  rw [unknownDemand?_eq_none_iff, meets, List.all_eq_true]
  simp only [beq_iff_eq]
  exact ⟨fun both => ⟨both.1, both.2⟩, fun suits => ⟨suits.usable, suits.met⟩⟩

instance (variant : StateVariant) : Decidable (Suits registry block state variant) :=
  decidable_of_iff _ suits_iff

theorem find?_usableVariants (file : StateFile) :
    (file.usableVariants block).find? (meets registry state) =
      file.variants.find? (fun variant => Suits registry block state variant) := by
  rw [usableVariants, List.find?_filter]
  simp only [suits_iff]

theorem usableParts_eq_nil_iff :
    (file.usableParts block).isEmpty = true ↔ ¬ ∃ part ∈ file.parts, UsablePart block part := by
  rw [List.isEmpty_iff, usableParts, List.filter_eq_nil_iff]
  simp only [unknownProperty?_eq_none_iff]
  push Not
  rfl

theorem filter_usableParts :
    (file.usableParts block).filter (fun part => part.condition.test registry state) =
      file.parts.filter (fun part =>
        UsablePart block part ∧ part.condition.test registry state) := by
  rw [usableParts, List.filter_filter]
  apply List.filter_congr
  intro part _
  rw [Bool.eq_iff_iff, Bool.and_eq_true, decide_eq_true_iff, unknownProperty?_eq_none_iff, and_comm]

theorem bindState?_eq_some_iff (parsed : StateFile.parse id text = .ok file) {binding : Binding} :
    bindState? registry (file.usableVariants block) (file.usableParts block) state = some binding ↔
      Takes file registry block state binding := by
  -- The search takes the first variant in the order of the keys.
  have first : ∀ variant,
      file.variants.find? (fun variant => Suits registry block state variant) = some variant ↔
        variant ∈ file.variants ∧ Suits registry block state variant ∧
          ∀ other ∈ file.variants, Suits registry block state other →
            other = variant ∨ Text.bytes variant.key < Text.bytes other.key := by
    intro variant
    rw [(increasing_keys_of_parse parsed).find?_eq_some_iff]
    simp only [decide_eq_true_iff, Text.compare_eq_lt_iff]
  unfold bindState?
  rw [find?_usableVariants]
  constructor
  · intro bound
    split at bound
    · rename_i variant found
      obtain ⟨listed, suits, least⟩ := (first variant).mp found
      obtain rfl := Option.some.inj bound
      exact .variant listed suits least
    · rename_i missed
      have free : ∀ variant ∈ file.variants, ¬ Suits registry block state variant := by
        simpa using missed
      split at bound
      · cases bound
      · rename_i given
        obtain rfl := Option.some.inj bound
        rw [filter_usableParts]
        exact .parts free (not_not.mp (usableParts_eq_nil_iff.not.mp given))
  · intro takes
    cases takes with
    | @variant variant listed suits least => rw [(first variant).mpr ⟨listed, suits, least⟩]
    | parts free given =>
        have missed : file.variants.find? (fun variant => Suits registry block state variant) =
            none := by
          simpa using free
        rw [missed]
        dsimp only
        rw [if_neg (usableParts_eq_nil_iff.not.mpr (not_not.mpr given)), filter_usableParts]

end Takes

/-! ## What a file gives for some states -/

theorem filter_filter_of_imp {Entry : Type} {entries : List Entry} {keep usable : Entry → Bool}
    (kept : ∀ entry ∈ entries, usable entry = true → keep entry = true) :
    (entries.filter keep).filter usable = entries.filter usable := by
  rw [List.filter_filter]
  apply List.filter_congr
  intro entry listed
  rw [Bool.and_eq_left_iff_imp]
  exact kept entry listed

/-- What is left of a file where some entries are deleted. -/
def retain (keepVariant : StateVariant → Bool) (keepPart : StatePart → Bool)
    (file : StateFile) : StateFile :=
  ⟨file.variants.filter keepVariant, file.parts.filter keepPart⟩

/-- A file without some of the entries that a block cannot use binds its states
as before. -/
theorem bind_retain (file : StateFile) {keepVariant : StateVariant → Bool}
    {keepPart : StatePart → Bool}
    (variants : ∀ variant ∈ file.variants, UsableVariant block variant → keepVariant variant = true)
    (parts : ∀ part ∈ file.parts, UsablePart block part → keepPart part = true)
    (registry : Registry) (states : List StateHandle) :
    (file.retain keepVariant keepPart).bind registry block states =
      file.bind registry block states := by
  have sameVariants : (file.retain keepVariant keepPart).usableVariants block =
      file.usableVariants block :=
    filter_filter_of_imp (fun variant listed usable =>
      variants variant listed (unknownDemand?_eq_none_iff.mp usable))
  have sameParts : (file.retain keepVariant keepPart).usableParts block =
      file.usableParts block :=
    filter_filter_of_imp (fun part listed usable =>
      parts part listed (unknownProperty?_eq_none_iff.mp usable))
  unfold bind
  rw [sameVariants, sameParts]

/-- The warnings about the entries of a file: one for each that a block cannot
use, about a property it mentions and the block does not have. -/
theorem exists_warnings (file : StateFile) (id : ResourceId) (block : BlockDef) :
    ∃ ofVariants ofParts, file.warnings id block = ofVariants ++ ofParts ∧
      List.Forall₂ (fun variant warning => ∃ demand ∈ variant.demands,
          ¬ block.HasProperty demand.1 ∧
            warning = .unknownVariantProperty demand.1 variant.key id)
        (file.variants.filter (fun variant => ¬ UsableVariant block variant)) ofVariants ∧
      List.Forall₂ (fun part warning => ∃ name, part.condition.Mentions name ∧
          ¬ block.HasProperty name ∧ warning = .unknownConditionProperty name id)
        (file.parts.filter (fun part => ¬ UsablePart block part)) ofParts := by
  refine ⟨_, _, rfl, ?variants, ?parts⟩
  case variants =>
    refine (forall₂_filterMap (fun _ => unknownDemand?_eq_none_iff) _ file.variants).imp ?_
    rintro variant _ ⟨name, unknown, rfl⟩
    obtain ⟨demand, member, rfl, lacking⟩ := BlockDef.of_unknown?_eq_some unknown
    exact ⟨demand, member, lacking, rfl⟩
  case parts =>
    refine (forall₂_filterMap (fun _ => unknownProperty?_eq_none_iff) _ file.parts).imp ?_
    rintro part _ ⟨name, unknown, rfl⟩
    obtain ⟨mention, member, named, lacking⟩ := BlockDef.of_unknown?_eq_some unknown
    exact ⟨name, part.condition.mentions_iff.mpr ⟨mention, member, named⟩, lacking, rfl⟩

theorem map_fst_bind (file : StateFile) (registry : Registry) (states : List StateHandle) :
    ((file.bind registry block states).map Prod.fst).Sublist states := by
  unfold bind
  dsimp only
  induction states with
  | nil => exact .slnil
  | cons state rest inductionHypothesis =>
      rw [List.filterMap_cons]
      cases bindState? registry (file.usableVariants block) (file.usableParts block) state with
      | none => exact inductionHypothesis.cons state
      | some binding => exact inductionHypothesis.cons_cons state

/-- What a file gives for a list of states of a block. -/
structure Binds (file : StateFile) (id : ResourceId) (registry : Registry) (block : BlockDef)
    (states : List StateHandle) : Prop where
  /-- What a variant asks for is written in its key. -/
  spelled : ∀ variant ∈ file.variants, parseKey? variant.key = some variant.demands
  ordered : ((file.bind registry block states).map Prod.fst).Sublist states
  once : states.Nodup → ((file.bind registry block states).map Prod.fst).Nodup
  taken : ∀ state binding, (state, binding) ∈ file.bind registry block states ↔
    state ∈ states ∧ Takes file registry block state binding
  /-- Entries that are not usable can be deleted. -/
  indifferent : ∀ (keepVariant : StateVariant → Bool) (keepPart : StatePart → Bool),
    (∀ variant ∈ file.variants, UsableVariant block variant → keepVariant variant = true) →
    (∀ part ∈ file.parts, UsablePart block part → keepPart part = true) →
      (file.retain keepVariant keepPart).bind registry block states =
        file.bind registry block states
  /-- There is one warning for each entry that is not usable. -/
  complained : ∃ ofVariants ofParts, file.warnings id block = ofVariants ++ ofParts ∧
    List.Forall₂ (fun variant warning => ∃ demand ∈ variant.demands,
        ¬ block.HasProperty demand.1 ∧
          warning = .unknownVariantProperty demand.1 variant.key id)
      (file.variants.filter (fun variant => ¬ UsableVariant block variant)) ofVariants ∧
    List.Forall₂ (fun part warning => ∃ name, part.condition.Mentions name ∧
        ¬ block.HasProperty name ∧ warning = .unknownConditionProperty name id)
      (file.parts.filter (fun part => ¬ UsablePart block part)) ofParts

/-- Whatever file is read, each of the given states takes what `Takes` says, in
the order given and at most once. -/
theorem binds_of_parse (id : ResourceId) (text : String) (file : StateFile)
    (parsed : StateFile.parse id text = .ok file) (registry : Registry) (block : BlockDef)
    (states : List StateHandle) : Binds file id registry block states where
  spelled _ listed := parseKey?_of_parse parsed listed
  ordered := map_fst_bind file registry states
  once distinct := (map_fst_bind file registry states).nodup distinct
  taken := by
    intro state binding
    rw [← bindState?_eq_some_iff parsed, bind, List.mem_filterMap]
    constructor
    · rintro ⟨given, listed, bound⟩
      obtain ⟨taken, isTaken, same⟩ := Option.map_eq_some_iff.mp bound
      obtain ⟨rfl, rfl⟩ := Prod.mk.inj same
      exact ⟨listed, isTaken⟩
    · rintro ⟨listed, isTaken⟩
      exact ⟨state, listed, Option.map_eq_some_iff.mpr ⟨binding, isTaken, rfl⟩⟩
  indifferent := by
    intro keepVariant keepPart variants parts
    exact file.bind_retain variants parts registry states
  complained := file.exists_warnings id block

/-- A lantern of which some variants overlap and some parts hold together; a
variant and a part ask for a color. -/
def lantern : String :=
  "\x7b\"variants\":\x7b" ++
  "\"lit=true\":\x7b\"model\":\"lit\"\x7d," ++
  "\"hanging=true\":\x7b\"model\":\"hanging\"\x7d," ++
  "\"color=red\":\x7b\"model\":\"red\"\x7d\x7d," ++
  "\"multipart\":[" ++
  "\x7b\"when\":\x7b\"lit\":false\x7d,\"apply\":\x7b\"model\":\"out\"\x7d\x7d," ++
  "\x7b\"when\":\x7b\"lit\":\"false|dim\"\x7d,\"apply\":\x7b\"model\":\"dark\"\x7d\x7d," ++
  "\x7b\"when\":\x7b\"OR\":[\x7b\"lit\":false\x7d,\x7b\"color\":\"red\"\x7d]\x7d," ++
  "\"apply\":\x7b\"model\":\"red\"\x7d\x7d]\x7d"

/-- A block of the properties that can be used. -/
def lanternBlock : BlockDef :=
  ((BlockDef.new (.inDefaultSpace "lantern")).withProperty "hanging" ["true", "false"]).withProperty
    "lit" ["true", "false", "dim"]

/-- Hanging lanterns take one variant whether they are lit or not, since its key
comes first. Of the standing ones only the lit one meets a variant. The one that is
out takes both usable parts, in order, and the dim one takes the second part alone,
since the condition of the first part is false for it. The variant and the part that
ask for a color give a warning each. -/
theorem binds_of_parse_lantern :
    let id := ResourceId.inDefaultSpace "lantern"
    let registry := (Registry.ofDefinitions [lanternBlock]).1
    let states := [0, 1, 2, 3, 4, 5]
    let placed := fun path => Binding.single ⟨.inDefaultSpace path, ⟨.identity, false⟩⟩
    let bound := [(0, placed "hanging"), (1, placed "hanging"), (2, placed "hanging"),
      (3, placed "lit"), (4, .composite [placed "out", placed "dark"]),
      (5, .composite [placed "dark"])]
    ∃ file, StateFile.parse id lantern = .ok file ∧
      file.bind registry lanternBlock states = bound ∧
      (file.warnings id lanternBlock).length = 2 ∧
      Binds file id registry lanternBlock states := by
  intro id registry states placed bound
  have read : (StateFile.parse id lantern).toOption.any (fun file =>
      file.bind registry lanternBlock states = bound ∧
        (file.warnings id lanternBlock).length = 2) = true := by
    have arranged : ∀ definition ∈ [lanternBlock], Registry.Arranged definition := by
      decide +kernel
    unfold registry
    rw [Registry.ofDefinitions_of_arranged arranged]
    decide +kernel
  obtain ⟨file, isFile, checked⟩ := (Option.any_eq_true _ _).mp read
  obtain ⟨isBound, complained⟩ := of_decide_eq_true checked
  have parsed := toOption_eq_some_iff.mp isFile
  exact ⟨file, parsed, isBound, complained,
    binds_of_parse id lantern file parsed registry lanternBlock states⟩

end StateFile

end PackModels
