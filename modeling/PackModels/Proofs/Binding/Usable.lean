import PackModels.Binding.StateFile
import PackModels.Proofs.Binding.Condition
import PackModels.Proofs.Block.Registry

/-!
Contract: which entries of a state file a block can use.

An entry is usable for a block that has every property which the entry mentions,
however deep in a condition. Where all entries of a file are usable, none is left
out and nothing is complained about.

Owns: `Mentions`, `UsableVariant` and `UsablePart`.

Does not own: what a state takes of the usable entries.
-/

namespace PackModels

/-- Whether a condition mentions a property, at any depth. -/
inductive Condition.Mentions (name : String) : Condition → Prop
  | property {values : List String} {negate : Bool} : Mentions name (.property name values negate)
  | any {terms : List Condition} {term : Condition} (listed : term ∈ terms)
      (mentions : Mentions name term) : Mentions name (.any terms)
  | every {terms : List Condition} {term : Condition} (listed : term ∈ terms)
      (mentions : Mentions name term) : Mentions name (.every terms)

theorem Condition.mentions_iff (condition : Condition) {name : String} :
    Mentions name condition ↔ ∃ mention ∈ condition.mentions, mention.1 = name := by
  constructor
  · intro mentions
    induction mentions with
    | property => exact ⟨_, List.mem_singleton_self _, rfl⟩
    | any listed _ inductionHypothesis =>
        obtain ⟨mention, member, named⟩ := inductionHypothesis
        exact ⟨mention, mem_mentionsOf_iff.mpr ⟨_, listed, member⟩, named⟩
    | every listed _ inductionHypothesis =>
        obtain ⟨mention, member, named⟩ := inductionHypothesis
        exact ⟨mention, mem_mentionsOf_iff.mpr ⟨_, listed, member⟩, named⟩
  · rintro ⟨mention, member, named⟩
    match condition with
    | .always => cases member
    | .any terms =>
        obtain ⟨term, listed, member⟩ := mem_mentionsOf_iff.mp member
        exact .any listed ((mentions_iff term).mpr ⟨mention, member, named⟩)
    | .every terms =>
        obtain ⟨term, listed, member⟩ := mem_mentionsOf_iff.mp member
        exact .every listed ((mentions_iff term).mpr ⟨mention, member, named⟩)
    | .property own values negate =>
        obtain rfl : mention = (own, values) := List.mem_singleton.mp member
        obtain rfl : own = name := named
        exact .property
termination_by sizeOf condition

namespace BlockDef

/-- Whether a block has a property of a name. -/
def HasProperty (block : BlockDef) (name : String) : Prop :=
  ∃ property ∈ block.properties, property.name = name

variable {block : BlockDef} {Values : Type} {mentions : List (String × Values)}

theorem propertyIndex?_eq_none_iff {name : String} :
    (block.propertyIndex? name).isNone = true ↔ ¬ block.HasProperty name := by
  rw [HasProperty, ← isSome_propertyIndex?_iff]
  cases block.propertyIndex? name <;> simp

/-- No mention is unknown to a block exactly if the block has all that is mentioned. -/
theorem unknown?_eq_none_iff :
    (mentions.find? (fun mention => (block.propertyIndex? mention.1).isNone)).map Prod.fst = none ↔
      ∀ mention ∈ mentions, block.HasProperty mention.1 := by
  simp only [Option.map_eq_none_iff, List.find?_eq_none, propertyIndex?_eq_none_iff, not_not]

theorem of_unknown?_eq_some {name : String}
    (unknown : (mentions.find? (fun mention => (block.propertyIndex? mention.1).isNone)).map
      Prod.fst = some name) :
    ∃ mention ∈ mentions, mention.1 = name ∧ ¬ block.HasProperty name := by
  obtain ⟨mention, found, named⟩ := Option.map_eq_some_iff.mp unknown
  refine ⟨mention, List.mem_of_find?_eq_some found, named, ?_⟩
  have lacking := List.find?_some found
  rw [named] at lacking
  exact propertyIndex?_eq_none_iff.mp lacking

end BlockDef

namespace StateFile

/-- A block has every property that a variant asks for. -/
def UsableVariant (block : BlockDef) (variant : StateVariant) : Prop :=
  ∀ demand ∈ variant.demands, block.HasProperty demand.1

/-- A block has every property that the condition of a part mentions. -/
def UsablePart (block : BlockDef) (part : StatePart) : Prop :=
  ∀ name, part.condition.Mentions name → block.HasProperty name

variable {block : BlockDef}

theorem unknownDemand?_eq_none_iff {variant : StateVariant} :
    (unknownDemand? block variant).isNone = true ↔ UsableVariant block variant := by
  rw [Option.isNone_iff_eq_none]
  exact BlockDef.unknown?_eq_none_iff

theorem unknownProperty?_eq_none_iff {part : StatePart} :
    (part.condition.unknownProperty? block).isNone = true ↔ UsablePart block part := by
  rw [Option.isNone_iff_eq_none, Condition.unknownProperty?, BlockDef.unknown?_eq_none_iff]
  constructor
  · intro known name mentions
    obtain ⟨mention, member, rfl⟩ := part.condition.mentions_iff.mp mentions
    exact known mention member
  · intro usable mention member
    exact usable mention.1 (part.condition.mentions_iff.mpr ⟨mention, member, rfl⟩)

instance (variant : StateVariant) : Decidable (UsableVariant block variant) :=
  decidable_of_iff _ unknownDemand?_eq_none_iff

instance (part : StatePart) : Decidable (UsablePart block part) :=
  decidable_of_iff _ unknownProperty?_eq_none_iff

section Usable

variable {file : StateFile}

theorem usableVariants_eq_self
    (usable : ∀ variant ∈ file.variants, UsableVariant block variant) :
    file.usableVariants block = file.variants := by
  rw [usableVariants, List.filter_eq_self]
  intro variant listed
  exact unknownDemand?_eq_none_iff.mpr (usable variant listed)

theorem usableParts_eq_self (usable : ∀ part ∈ file.parts, UsablePart block part) :
    file.usableParts block = file.parts := by
  rw [usableParts, List.filter_eq_self]
  intro part listed
  exact unknownProperty?_eq_none_iff.mpr (usable part listed)

theorem warnings_eq_nil_of_usable (id : ResourceId)
    (variants : ∀ variant ∈ file.variants, UsableVariant block variant)
    (parts : ∀ part ∈ file.parts, UsablePart block part) : file.warnings id block = [] := by
  rw [warnings, List.append_eq_nil_iff, List.filterMap_eq_nil_iff, List.filterMap_eq_nil_iff]
  simp only [← Option.isNone_iff_eq_none, Option.isNone_map]
  constructor
  · intro variant listed
    exact unknownDemand?_eq_none_iff.mpr (variants variant listed)
  · intro part listed
    exact unknownProperty?_eq_none_iff.mpr (parts part listed)

end Usable

end StateFile

end PackModels
