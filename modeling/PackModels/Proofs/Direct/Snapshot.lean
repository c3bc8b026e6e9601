import PackModels.Proofs.Baking.Batch
import PackModels.Proofs.Discovery.Chain
import PackModels.Proofs.Reload.Inputs
import PackModels.Reload.Prepare

/-!
Contract: a reload serves every state and every item as if it had been worked
out alone.

Here a state is worked out from its binding, the files and the atlases, without
a discovery that is shared and without a cache. The snapshot of a reload
serves the same for every state and every item, apart from which of the served
models are one instance.
-/

namespace PackModels.Direct

variable (inputs : ReloadInputs)

/-- The atlases of a reload; none but the missing texture where stitching
fails. -/
def atlases : AtlasSet :=
  (inputs.stitched.map Prod.fst).getD AtlasSet.missingOnly

/-- A key baked from the files alone. -/
def bake? : Finder :=
  fun key =>
    ((Bake.chain (atlases inputs) key.id.render (chain (files inputs.models) key.id)
        key.placement ∅).1.toOption).map (fun model => ⟨0, model⟩)

/-- The missing model, baked by hand where it cannot be baked. -/
def missingModel : Shared BakedModel :=
  (bake? inputs Batch.missingKey).getD
    ⟨0, Bake.missingModel
      ((atlases inputs).lookUp ModelDef.missingId.render Material.missing ∅).1⟩

/-- What the binding of a state comes to, if there is one and all of it can be
baked. -/
def baked? (state : StateHandle) : Option StateModel :=
  (Look.bindingOf? inputs.registry inputs.bindings state).bind (Binding.assemble (bake? inputs))

/-- What a state draws. -/
def stateModel (state : StateHandle) : StateModel :=
  (baked? inputs state).getD (.single (missingModel inputs))

/-- What an item is drawn with. -/
def itemModel (id : ResourceId) : ItemModel :=
  (inputs.items[id]?.bind (ItemBinding.assemble (bake? inputs))).getD
    (.model (missingModel inputs))

/-! ## The discovery of a reload -/

/-- The discovery of a reload without its warnings. -/
def found : Discovery :=
  (Prepare.discover inputs (ReadModels.ofTexts inputs.models).1).1

/-- What a reload bakes from. -/
def bakery : Bakery :=
  ⟨ModelSet.ofDiscovery (found inputs), (Prepare.atlases inputs).1⟩

theorem atlases_bakery : (bakery inputs).atlases = atlases inputs := by
  unfold bakery Prepare.atlases atlases
  cases inputs.stitched with
  | none => rfl
  | some stitched => rfl

theorem settled_discover (read : ReadModels) :
    Discovery.Settled (Prepare.rootsOf inputs.bindings inputs.items)
        (Prepare.discover inputs read).1 ∧
      (Prepare.discover inputs read).1.input = read.models ∧
      (Prepare.discover inputs read).1.missing = Prepare.missingModel := by
  have start := Discovery.settled_start read.models
    (show Prepare.missingModel.value.parent = none from rfl)
  exact start.visitAll (Prepare.rootsOf inputs.bindings inputs.items)

/-- Discovery works on the definitions of the files, in whatever order these were
read. -/
theorem holds_discover {entries : List (ResourceId × String)}
    (permutation : entries.Perm inputs.models.toList) :
    Discovery.Holds (files inputs.models)
      (Prepare.discover inputs (ReadModels.ofEntries entries).1).1 := by
  obtain ⟨_, input, missing⟩ := settled_discover inputs (ReadModels.ofEntries entries).1
  have reads := ReadModels.reads_of_perm permutation
  refine ⟨?_, ?_, ?_, ?_⟩
  · rw [missing]
    rfl
  · intro id
    rw [input, ReadModels.map_value_ofEntries permutation]
  · intro id model held
    rw [input] at held
    have positive := reads.tagged.positive id model held
    have zero : Prepare.missingModel.tag = 0 := rfl
    rw [missing]
    omega
  · rw [input]
    exact reads.tagged.apart

theorem found_settled :
    Discovery.Settled (Prepare.rootsOf inputs.bindings inputs.items) (found inputs) :=
  (settled_discover inputs (ReadModels.ofTexts inputs.models).1).1

theorem found_holds : Discovery.Holds (files inputs.models) (found inputs) :=
  holds_discover inputs (.refl _)

/-- What the bakery of a reload bakes for a referenced id is what the files
give. -/
theorem afresh_eq_bake? {key : BakeKey} (referenced : key.id ∈ (found inputs).referenced) :
    (bakery inputs).afresh key = bake? inputs key := by
  have chain := Discovery.chain_eq (found_settled inputs) (found_holds inputs) referenced
  unfold Bakery.afresh bake? Bake.model
  rw [atlases_bakery]
  change (Bake.chain _ _ ((ModelSet.ofDiscovery (found inputs)).chain key.id) _ _).1.toOption.map _
    = _
  rw [chain]

variable {inputs}

theorem referenced_of_root {id : ResourceId}
    (root : id ∈ Prepare.rootsOf inputs.bindings inputs.items) :
    id ∈ (found inputs).referenced :=
  (found_settled inputs).asked_referenced id root

theorem assemble_binding {id : StateId} {binding : Binding}
    (bound : inputs.bindings[id]? = some binding) :
    Binding.assemble (bakery inputs).afresh binding = Binding.assemble (bake? inputs) binding := by
  apply binding.assembly.congr
  intro key member
  apply afresh_eq_bake?
  obtain ⟨variant, isVariant, rfl⟩ := List.mem_map.mp member
  apply referenced_of_root
  have entry := Std.ExtTreeMap.mem_toList_iff_getElem?_eq_some.mpr bound
  apply List.mem_append_left
  exact List.mem_flatMap.mpr ⟨(id, binding), entry, List.mem_map_of_mem isVariant⟩

theorem assemble_item {id : ResourceId} {item : ItemBinding}
    (bound : inputs.items[id]? = some item) :
    ItemBinding.assemble (bakery inputs).afresh item =
      ItemBinding.assemble (bake? inputs) item := by
  apply item.assembly.congr
  intro key member
  apply afresh_eq_bake?
  apply referenced_of_root
  have entry := Std.ExtTreeMap.mem_toList_iff_getElem?_eq_some.mpr bound
  apply List.mem_append_right
  refine List.mem_flatMap.mpr ⟨(id, item), entry, ?_⟩
  cases item with
  | empty => cases member
  | model shown =>
      change key ∈ [_] at member
      rw [List.mem_singleton.mp member]
      exact List.mem_singleton.mpr rfl

theorem missingAfresh_eq : Batch.missingAfresh (bakery inputs) = (missingModel inputs).value := by
  have referenced : Batch.missingKey.id ∈ (found inputs).referenced :=
    (found_settled inputs).missing_referenced
  unfold Batch.missingAfresh missingModel
  rw [afresh_eq_bake? inputs referenced, atlases_bakery]
  cases bake? inputs Batch.missingKey with
  | none => rfl
  | some model => rfl

theorem missingModel_untagged : (missingModel inputs).untagged = missingModel inputs := by
  unfold missingModel bake?
  cases (Bake.chain (atlases inputs) Batch.missingKey.id.render
    (chain (files inputs.models) Batch.missingKey.id) Batch.missingKey.placement ∅).1.toOption with
  | none => rfl
  | some model => rfl

/-! ## The snapshot of a reload -/

/-- The batch of a reload without its warnings. -/
def batch (inputs : ReloadInputs) : Batch :=
  (Batch.bakeAll (bakery inputs) inputs.bindings inputs.items).1

theorem batch_complete (inputs : ReloadInputs) :
    ∃ last, Batch.Complete (bakery inputs) inputs.bindings inputs.items (batch inputs) last :=
  Batch.bakeAll_complete (bakery inputs) inputs.bindings inputs.items

theorem missing_eq : (batch inputs).missingModel.untagged = missingModel inputs := by
  obtain ⟨last, complete⟩ := batch_complete inputs
  rw [← missingModel_untagged, Shared.untagged, Shared.untagged, complete.missing,
    missingAfresh_eq]

/-- What was baked for a state is what the state comes to alone. -/
theorem map_bakedFor? (inputs : ReloadInputs) (state : StateHandle) :
    (Prepare.bakedFor? inputs.registry (batch inputs).stateModels state).map StateModel.untagged =
      baked? inputs state := by
  obtain ⟨last, complete⟩ := batch_complete inputs
  unfold Prepare.bakedFor? baked? Look.bindingOf?
  cases inputs.registry.stateId? state with
  | none => rfl
  | some id =>
      simp only [Option.bind_some]
      rw [complete.map_stateModels id]
      cases bound : inputs.bindings[id]? with
      | none => rw [Option.bind_none, Option.bind_none]
      | some binding => rw [Option.bind_some, Option.bind_some, assemble_binding bound]

theorem map_itemModels (id : ResourceId) :
    ((batch inputs).itemModels[id]?).map ItemModel.untagged =
      inputs.items[id]?.bind (ItemBinding.assemble (bake? inputs)) := by
  obtain ⟨last, complete⟩ := batch_complete inputs
  rw [complete.map_itemModels id]
  cases bound : inputs.items[id]? with
  | none => rw [Option.bind_none, Option.bind_none]
  | some item => rw [Option.bind_some, Option.bind_some, assemble_item bound]

theorem baked?_eq_none_of_le {state : StateHandle} (outside : inputs.registry.stateCount ≤ state) :
    baked? inputs state = none := by
  have absent : inputs.registry.state? state = none := Array.getElem?_eq_none outside
  have unnamed : inputs.registry.stateId? state = none := by
    unfold Registry.stateId? Registry.blockOf?
    rw [absent]
    rfl
  rw [baked?, Look.bindingOf?, unnamed, Option.bind_none, Option.bind_none]

/-- A snapshot serves for every handle what was baked for it, or the missing
model. -/
theorem snapshot_stateModel (state : StateHandle) :
    (Prepare.snapshot inputs).1.stateModel state =
      (Prepare.bakedFor? inputs.registry (batch inputs).stateModels state).getD
        (.single (batch inputs).missingModel) := by
  have unfolded : (Prepare.snapshot inputs).1.stateModel state =
      ((Prepare.dispatch inputs.registry (batch inputs))[state]?).getD
        (.single (batch inputs).missingModel) :=
    rfl
  rw [unfolded, Prepare.dispatch, List.getElem?_toArray, List.getElem?_map]
  by_cases inside : state < inputs.registry.stateCount
  · rw [Registry.handles, List.getElem?_range inside, Option.map_some, Option.getD_some]
  · have outside : inputs.registry.stateCount ≤ state := Nat.le_of_not_lt inside
    have unbaked := map_bakedFor? inputs state
    rw [baked?_eq_none_of_le outside, Option.map_eq_none_iff] at unbaked
    rw [Registry.handles, List.getElem?_eq_none (by simpa using outside), Option.map_none,
      unbaked, Option.getD_none]

theorem snapshot_itemModel (id : ResourceId) :
    (Prepare.snapshot inputs).1.itemModel id =
      ((batch inputs).itemModels[id]?).getD (.model (batch inputs).missingModel) :=
  rfl

theorem isNone_bakedFor? (state : StateHandle) :
    (Prepare.bakedFor? inputs.registry (batch inputs).stateModels state).isNone =
      (baked? inputs state).isNone := by
  rw [← map_bakedFor?, Option.isNone_map]

theorem failures_eq : (batch inputs).stats.failedBindings =
    inputs.bindings.toList.countP
        (fun entry => (Binding.assemble (bake? inputs) entry.2).isNone)
      + inputs.items.toList.countP
        (fun entry => (ItemBinding.assemble (bake? inputs) entry.2).isNone) := by
  obtain ⟨last, complete⟩ := batch_complete inputs
  have states : Batch.failures (bakery inputs) Binding.assembly inputs.bindings.toList =
      inputs.bindings.toList.countP
        (fun entry => (Binding.assemble (bake? inputs) entry.2).isNone) := by
    apply List.countP_congr
    intro entry member
    have bound := Std.ExtTreeMap.mem_toList_iff_getElem?_eq_some.mp member
    have same := assemble_binding bound
    simp only [Binding.assembly, same]
  have shown : Batch.failures (bakery inputs) ItemBinding.assembly inputs.items.toList =
      inputs.items.toList.countP
        (fun entry => (ItemBinding.assemble (bake? inputs) entry.2).isNone) := by
    apply List.countP_congr
    intro entry member
    have bound := Std.ExtTreeMap.mem_toList_iff_getElem?_eq_some.mp member
    have same := assemble_item bound
    simp only [ItemBinding.assembly, same]
  rw [complete.failed, states, shown]

/-- Every state and every item is served as if it had been worked out alone,
and what a reload counts as missed and as failed is what would fail alone. -/
theorem snapshot_eq_direct (inputs : ReloadInputs) :
    (∀ state : StateHandle,
      ((Prepare.snapshot inputs).1.stateModel state).untagged = stateModel inputs state) ∧
    (∀ id : ResourceId,
      ((Prepare.snapshot inputs).1.itemModel id).untagged = itemModel inputs id) ∧
    (Prepare.snapshot inputs).1.stats.dispatchMisses =
      inputs.registry.handles.countP (fun state => (baked? inputs state).isNone) ∧
    (Prepare.snapshot inputs).1.stats.bake.failedBindings =
      inputs.bindings.toList.countP
          (fun entry => (Binding.assemble (bake? inputs) entry.2).isNone)
        + inputs.items.toList.countP
          (fun entry => (ItemBinding.assemble (bake? inputs) entry.2).isNone) := by
  refine ⟨?states, ?items, ?misses, failures_eq⟩
  case states =>
    intro state
    rw [snapshot_stateModel, stateModel, ← map_bakedFor?]
    cases Prepare.bakedFor? inputs.registry (batch inputs).stateModels state with
    | none =>
        rw [Option.map_none, Option.getD_none, Option.getD_none, StateModel.untagged,
          StateModel.map, missing_eq]
    | some model => rw [Option.map_some, Option.getD_some, Option.getD_some]
  case items =>
    intro id
    rw [snapshot_itemModel, itemModel, ← map_itemModels]
    cases (batch inputs).itemModels[id]? with
    | none =>
        rw [Option.map_none, Option.getD_none, Option.getD_none, ItemModel.untagged,
          ItemModel.map, missing_eq]
    | some model => rw [Option.map_some, Option.getD_some, Option.getD_some]
  case misses =>
    have unfolded : (Prepare.snapshot inputs).1.stats.dispatchMisses =
        (inputs.registry.handles.filter (fun state =>
          (Prepare.bakedFor? inputs.registry (batch inputs).stateModels state).isNone)).length :=
      rfl
    rw [unfolded, ← List.countP_eq_length_filter]
    apply List.countP_congr
    intro state _
    rw [isNone_bakedFor?]

end PackModels.Direct
