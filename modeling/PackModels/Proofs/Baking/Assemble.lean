import PackModels.Baking.Cache

/-!
Contract: what a binding comes to when the bakes of its variants are given.

`assemble` puts a state model together from bakes that are found by model and
placement, and fails where one of them is not found or nothing can be chosen.
It makes no bake of its own, so two ways of finding bakes can be compared:
where everything that the first finds is found by the second too, up to some
change of instances, what the first assembles is assembled by the second up to
that change.
-/

namespace PackModels

/-- A way of finding finished bakes. -/
abbrev Finder : Type :=
  BakeKey → Option (Shared BakedModel)

namespace Shared

/-- The value alone: every value is held by the instance of tag zero. -/
def untagged {α : Type} (model : Shared α) : Shared α :=
  ⟨0, model.value⟩

end Shared

/-! ## Exchanging the instances that are drawn -/

namespace WeightedModel

def map (change : Shared BakedModel → Shared BakedModel) (entry : WeightedModel) :
    WeightedModel :=
  ⟨entry.weight, change entry.model⟩

theorem map_id : map id = id :=
  rfl

end WeightedModel

namespace StateModel

variable (change : Shared BakedModel → Shared BakedModel)

mutual

/-- The state model with every instance changed. -/
def map : StateModel → StateModel
  | .single model => .single (change model)
  | .weighted entries total => .weighted (entries.map (WeightedModel.map change)) total
  | .composite parts => .composite (mapParts parts)

def mapParts : List StateModel → List StateModel
  | [] => []
  | part :: rest => map part :: mapParts rest

end

mutual

theorem map_id : (model : StateModel) → model.map id = model
  | .single _ => by rw [map, id]
  | .weighted entries total => by rw [map, WeightedModel.map_id, List.map_id]
  | .composite parts => by rw [map, mapParts_id parts]

theorem mapParts_id : (parts : List StateModel) → mapParts id parts = parts
  | [] => by rw [mapParts]
  | part :: rest => by rw [mapParts, map_id part, mapParts_id rest]

end

/-- What a state draws, apart from which instances it shares with others. -/
def untagged (model : StateModel) : StateModel :=
  model.map Shared.untagged

theorem totalWeight_map (entries : List WeightedModel) :
    totalWeight (entries.map (WeightedModel.map change)) = totalWeight entries := by
  induction entries with
  | nil => rfl
  | cons entry rest inductionHypothesis =>
      rw [List.map_cons, totalWeight, totalWeight, inductionHypothesis]
      rfl

theorem filter_weight_map (entries : List WeightedModel) :
    (entries.map (WeightedModel.map change)).filter (fun entry => 0 < entry.weight) =
      (entries.filter (fun entry => 0 < entry.weight)).map (WeightedModel.map change) := by
  rw [List.filter_map]
  rfl

/-- Which models a choice keeps depends on the weights alone. -/
theorem ofWeighted?_map (entries : List WeightedModel) :
    ofWeighted? (entries.map (WeightedModel.map change)) =
      (ofWeighted? entries).map (map change) := by
  unfold ofWeighted?
  rw [filter_weight_map]
  cases entries.filter (fun entry => 0 < entry.weight) with
  | nil => rfl
  | cons first others =>
      cases others with
      | nil =>
          simp only [List.map_cons, List.map_nil, Option.map_some, map]
          rfl
      | cons second rest =>
          have total := totalWeight_map change (first :: second :: rest)
          simp only [List.map_cons] at total
          simp only [List.map_cons, Option.map_some, map, total]

end StateModel

namespace ItemModel

/-- The item model with its instance changed. -/
def map (change : Shared BakedModel → Shared BakedModel) : ItemModel → ItemModel
  | .model held => .model (change held)
  | .empty => .empty

theorem map_id (shown : ItemModel) : shown.map id = shown := by
  cases shown with
  | model held => rfl
  | empty => rfl

/-- What an item is drawn with, apart from the instance. -/
def untagged (shown : ItemModel) : ItemModel :=
  shown.map Shared.untagged

end ItemModel

/-! ## Finding bakes -/

namespace Variant

/-- Where the bake of a variant is found. -/
def key (variant : Variant) : BakeKey :=
  ⟨variant.model, variant.placement⟩

end Variant

namespace Finder

/-- What one finder finds under some keys the other one finds too, changed. -/
def Refines (keys : List BakeKey) (change : Shared BakedModel → Shared BakedModel)
    (find find' : Finder) : Prop :=
  ∀ key ∈ keys, ∀ model, find key = some model → find' key = some (change model)

variable {keys fewer : List BakeKey} {change : Shared BakedModel → Shared BakedModel}
  {find find' : Finder}

theorem Refines.subset (refines : Refines keys change find find')
    (subset : ∀ key ∈ fewer, key ∈ keys) : Refines fewer change find find' :=
  fun key member => refines key (subset key member)

end Finder

/-- Something that is put together from the bakes under some keys, instance by
instance. -/
structure Assembly (Value : Type) where
  keys : List BakeKey
  build : Finder → Option Value
  /-- Changes every instance of a value. -/
  map : (Shared BakedModel → Shared BakedModel) → Value → Value
  map_id : ∀ value, map id value = value
  refines : ∀ {change : Shared BakedModel → Shared BakedModel} {find find' : Finder},
    Finder.Refines keys change find find' →
      ∀ value, build find = some value → build find' = some (map change value)

/-- Finders that agree on the keys of an assembly build the same. -/
theorem Assembly.congr {Value : Type} (assembly : Assembly Value) {find find' : Finder}
    (agree : ∀ key ∈ assembly.keys, find key = find' key) :
    assembly.build find = assembly.build find' := by
  have forth : Finder.Refines assembly.keys id find find' := by
    intro key member model found
    rw [← agree key member, found, id]
  have back : Finder.Refines assembly.keys id find' find := by
    intro key member model found
    rw [agree key member, found, id]
  apply Option.ext
  intro value
  constructor
  · intro built
    rw [assembly.refines forth value built, assembly.map_id]
  · intro built
    rw [assembly.refines back value built, assembly.map_id]

/-! ## What a binding comes to -/

namespace Binding

/-- Where the bakes of a binding are found, from left to right. -/
def keys (binding : Binding) : List BakeKey :=
  binding.variants.map Variant.key

variable (find : Finder)

def assembleEntries : List WeightedVariant → Option (List WeightedModel)
  | [] => some []
  | entry :: rest =>
      match find entry.variant.key with
      | none => none
      | some model => (assembleEntries rest).map (⟨entry.weight, model⟩ :: ·)

mutual

/-- The state model that a binding comes to. -/
def assemble : Binding → Option StateModel
  | .single variant => (find variant.key).map .single
  | .weighted entries => (assembleEntries find entries).bind StateModel.ofWeighted?
  | .composite parts => (assembleParts parts).map .composite

def assembleParts : List Binding → Option (List StateModel)
  | [] => some []
  | part :: rest =>
      match assemble part with
      | none => none
      | some model => (assembleParts rest).map (model :: ·)

end

variable {find}

/-- Entries come to something together where the first one and the others do. -/
theorem assembleEntries_cons_eq_some_iff {entry : WeightedVariant} {rest : List WeightedVariant}
    {models : List WeightedModel} :
    assembleEntries find (entry :: rest) = some models ↔ ∃ model others,
      find entry.variant.key = some model ∧ assembleEntries find rest = some others ∧
        models = ⟨entry.weight, model⟩ :: others := by
  rw [assembleEntries]
  cases find entry.variant.key with
  | none => simp
  | some model => simp [@eq_comm _ models]

theorem assembleParts_cons_eq_some_iff {part : Binding} {rest : List Binding}
    {models : List StateModel} :
    assembleParts find (part :: rest) = some models ↔ ∃ model others,
      assemble find part = some model ∧ assembleParts find rest = some others ∧
        models = model :: others := by
  rw [assembleParts]
  cases assemble find part with
  | none => simp
  | some model => simp [@eq_comm _ models]

section Refining

variable {find' : Finder} {change : Shared BakedModel → Shared BakedModel}

theorem assembleEntries_refines (entries : List WeightedVariant)
    (refines : Finder.Refines (entries.map (fun entry => entry.variant.key)) change find find') :
    ∀ models, assembleEntries find entries = some models →
      assembleEntries find' entries = some (models.map (WeightedModel.map change)) := by
  induction entries with
  | nil =>
      intro models assembled
      rw [assembleEntries] at assembled ⊢
      rw [← Option.some.inj assembled]
      rfl
  | cons entry rest inductionHypothesis =>
      intro models assembled
      obtain ⟨model, others, found, assembledRest, rfl⟩ :=
        assembleEntries_cons_eq_some_iff.mp assembled
      have restRefines := refines.subset (fun key member => List.mem_cons_of_mem _ member)
      have found' := refines entry.variant.key (by simp) model found
      exact assembleEntries_cons_eq_some_iff.mpr
        ⟨_, _, found', inductionHypothesis restRefines others assembledRest, rfl⟩

mutual

/-- What is assembled from some bakes is assembled from others that refine
them. -/
theorem assemble_refines : (binding : Binding) →
    (refines : Finder.Refines binding.keys change find find') →
    ∀ model, assemble find binding = some model →
      assemble find' binding = some (model.map change)
  | .single variant => by
      intro refines model assembled
      rw [assemble] at assembled ⊢
      obtain ⟨found, foundHere, rfl⟩ := Option.map_eq_some_iff.mp assembled
      have member : variant.key ∈ (Binding.single variant).keys := by
        simp [keys, variants]
      rw [refines variant.key member found foundHere, Option.map_some, StateModel.map]
  | .weighted entries => by
      intro refines model assembled
      rw [assemble] at assembled ⊢
      obtain ⟨found, foundHere, chosen⟩ := Option.bind_eq_some_iff.mp assembled
      have entriesRefine : Finder.Refines (entries.map (fun entry => entry.variant.key))
          change find find' := by
        refine refines.subset fun key member => ?_
        rw [keys, variants, List.map_map]
        exact member
      rw [assembleEntries_refines entries entriesRefine found foundHere, Option.bind_some,
        StateModel.ofWeighted?_map, chosen, Option.map_some]
  | .composite parts => by
      intro refines model assembled
      rw [assemble] at assembled ⊢
      obtain ⟨found, foundHere, rfl⟩ := Option.map_eq_some_iff.mp assembled
      have partsRefine : Finder.Refines ((variantsOfParts parts).map Variant.key)
          change find find' := by
        rw [keys, variants] at refines
        exact refines
      rw [assembleParts_refines parts partsRefine found foundHere, Option.map_some,
        StateModel.map]

theorem assembleParts_refines : (parts : List Binding) →
    (refines : Finder.Refines ((variantsOfParts parts).map Variant.key) change find find') →
    ∀ models, assembleParts find parts = some models →
      assembleParts find' parts = some (StateModel.mapParts change models)
  | [] => by
      intro refines models assembled
      rw [assembleParts] at assembled ⊢
      rw [← Option.some.inj assembled, StateModel.mapParts]
  | part :: rest => by
      intro refines models assembled
      rw [variantsOfParts, List.map_append] at refines
      obtain ⟨model, others, first, assembledRest, rfl⟩ :=
        assembleParts_cons_eq_some_iff.mp assembled
      have partRefines := refines.subset (fun key member => List.mem_append_left _ member)
      have restRefines := refines.subset (fun key member => List.mem_append_right _ member)
      have first' := assemble_refines part partRefines model first
      have rest' := assembleParts_refines rest restRefines others assembledRest
      rw [StateModel.mapParts]
      exact assembleParts_cons_eq_some_iff.mpr ⟨_, _, first', rest', rfl⟩

end

end Refining

/-- The assembly of a binding. -/
def assembly (binding : Binding) : Assembly StateModel where
  keys := binding.keys
  build := fun find => assemble find binding
  map := StateModel.map
  map_id := StateModel.map_id
  refines := assemble_refines binding

end Binding

namespace ItemBinding

/-- Where the bake of an item is found. -/
def keys : ItemBinding → List BakeKey
  | .model id => [⟨id, Placement.identity⟩]
  | .empty => []

/-- The item model that an item comes to. -/
def assemble (find : Finder) : ItemBinding → Option ItemModel
  | .model id => (find ⟨id, Placement.identity⟩).map .model
  | .empty => some .empty

variable {find find' : Finder} {change : Shared BakedModel → Shared BakedModel}

theorem assemble_refines (item : ItemBinding)
    (refines : Finder.Refines item.keys change find find') :
    ∀ model, assemble find item = some model →
      assemble find' item = some (model.map change) := by
  intro model assembled
  cases item with
  | model id =>
      obtain ⟨found, foundHere, rfl⟩ := Option.map_eq_some_iff.mp assembled
      have member : ⟨id, Placement.identity⟩ ∈ (ItemBinding.model id).keys := by
        simp [keys]
      rw [assemble, refines _ member found foundHere]
      rfl
  | empty =>
      rw [← Option.some.inj assembled]
      rfl

/-- The assembly of an item. -/
def assembly (item : ItemBinding) : Assembly ItemModel where
  keys := item.keys
  build := fun find => assemble find item
  map := ItemModel.map
  map_id := ItemModel.map_id
  refines := assemble_refines item

end ItemBinding

end PackModels
