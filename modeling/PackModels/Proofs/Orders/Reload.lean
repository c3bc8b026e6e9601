import PackModels.Proofs.Direct.Snapshot
import PackModels.Proofs.Orders.Baking
import PackModels.Proofs.Orders.Discovery

/-!
Contract: a reload comes to the same in every order.

Models are read by tasks that finish in any order, and what is found in a
collection without an order is gone through in any order. The order in which
models are read decides which instances hold them and in which order those that
cannot be read are complained about, and nothing else. The instances matter
neither to discovery nor to the chains that are baked, and all other orders are
lost where they arise.

Owns: the stages of a reload with the orders spelled out.
-/

namespace PackModels

/-! ## Reading -/

namespace ReadModels

variable (orders : Orders)

/-- One more task has finished. -/
def addIn (read : ReadModels × List Warning) (entry : (ResourceId × String) × Nat) :
    ReadModels × List Warning :=
  match ModelDef.parseIn orders entry.1.1 entry.1.2 with
  | .ok model =>
      ({ read.1 with models := read.1.models.insert entry.1.1 ⟨entry.2, model⟩ }, read.2)
  | .error error =>
      ({ read.1 with failed := read.1.failed + 1 }, read.2 ++ [.modelUnreadable error])

/-- The files in the order in which the tasks that read them finish. -/
def finishedIn (texts : Table ResourceId String) : List (ResourceId × String) :=
  orders.arrange .finished (orders.arrange .tasks texts.toList)

/-- Reads models by one task each. -/
def ofTextsIn (texts : Table ResourceId String) : ReadModels × List Warning :=
  ((finishedIn orders texts).zipIdx 1).foldl (addIn orders) (empty, [])

theorem finishedIn_perm (texts : Table ResourceId String) :
    (finishedIn orders texts).Perm texts.toList :=
  (orders.perm .finished _).trans (orders.perm .tasks _)

theorem ofTextsIn_eq (texts : Table ResourceId String) :
    ofTextsIn orders texts = ofEntries (finishedIn orders texts) := by
  have sameStep : addIn orders = add := by
    funext read entry
    simp only [addIn, ModelDef.parseIn_eq]
    rfl
  rw [ofTextsIn, sameStep, ofEntries]

variable {texts : Table ResourceId String} {entries : List (ResourceId × String)}

/-- The order in which files are read tells in instances only. -/
theorem untaggedModels_ofEntries (permutation : entries.Perm texts.toList) :
    untaggedModels (ofEntries entries).1.models = untaggedModels (ofTexts texts).1.models := by
  have told : ∀ {entries : List (ResourceId × String)}, entries.Perm texts.toList →
      ∀ id : ResourceId, (untaggedModels (ofEntries entries).1.models)[id]? =
        ((Direct.files texts)[id]?).map (fun definition => ⟨0, definition⟩) := by
    intro entries permutation id
    rw [getElem?_untaggedModels, ← map_value_ofEntries permutation, Option.map_map]
    rfl
  apply Std.ExtTreeMap.ext_getElem?
  intro id
  exact (told permutation id).trans (told (.refl _) id).symm

theorem failed_ofEntries (permutation : entries.Perm texts.toList) :
    (ofEntries entries).1.failed = (ofTexts texts).1.failed := by
  rw [ofTexts, (ofEntries_complains entries).2, (ofEntries_complains texts.toList).2,
    (permutation.filterMap complaint?).length_eq]

theorem warnings_ofEntries (permutation : entries.Perm texts.toList) :
    (ofEntries entries).2.Perm (ofTexts texts).2 := by
  rw [ofTexts, (ofEntries_complains entries).1, (ofEntries_complains texts.toList).1]
  exact permutation.filterMap complaint?

theorem unreadable_of_mem_warnings {warning : Warning}
    (member : warning ∈ (ofEntries entries).2) : ∃ error, warning = .modelUnreadable error := by
  rw [(ofEntries_complains entries).1] at member
  obtain ⟨entry, _, complains⟩ := List.mem_filterMap.mp member
  unfold complaint? at complains
  split at complains
  · cases complains
  · rename_i error _
    exact ⟨error, (Option.some.inj complains).symm⟩

end ReadModels

namespace Prepare

/-! ## Discovery -/

section Discovering

variable (orders : Orders) (inputs : ReloadInputs)

/-- Every model that something is bound to. What is bound is listed in some order
and then put in the order of its keys. -/
def rootsIn : List ResourceId :=
  (sortBy Prod.fst (orders.arrange .rootStates inputs.bindings.toList)).flatMap
      (fun entry => entry.2.models)
    ++ (sortBy Prod.fst (orders.arrange .rootItems inputs.items.toList)).flatMap
      (fun entry => entry.2.models)

def discoverIn (read : ReadModels) : Discovery × List Warning :=
  Discovery.visitAll (Discovery.start read.models missingModel) (rootsIn orders inputs)

/-- The loaded models that are not referenced, which are listed in some order and
then put in order. -/
def unreferencedIn (discovery : Discovery) : List ResourceId :=
  sortBy id (((orders.arrange .loaded discovery.input.toList).map Prod.fst).filter
    (fun id => !discovery.referenced.contains id))

theorem rootsIn_eq : rootsIn orders inputs = rootsOf inputs.bindings inputs.items := by
  have states := (Table.increasing_toList inputs.bindings).sortBy_eq (orders.perm .rootStates _)
  have shown := (Table.increasing_toList inputs.items).sortBy_eq (orders.perm .rootItems _)
  rw [rootsIn, states, shown, rootsOf]

theorem discoverIn_eq (read : ReadModels) :
    discoverIn orders inputs read = discover inputs read := by
  rw [discoverIn, rootsIn_eq, discover]

theorem unreferencedIn_eq (discovery : Discovery) :
    unreferencedIn orders discovery = discovery.unreferenced := by
  have increasing : Increasing id discovery.unreferenced := discovery.unreferenced_sorted
  have listed := (orders.perm .loaded discovery.input.toList).map Prod.fst
  rw [Std.ExtTreeMap.map_fst_toList_eq_keys] at listed
  exact increasing.sortBy_eq (listed.filter _)

end Discovering

variable {inputs : ReloadInputs}

theorem start_untagged (models : Table ResourceId (Shared ModelDef)) :
    (Discovery.start models missingModel).untagged =
      Discovery.start (untaggedModels models) missingModel := by
  unfold Discovery.untagged Discovery.start untaggedModels
  rw [Table.map_ofPairs]
  rfl

variable (inputs) in
theorem visitAll_start_untagged (read : ReadModels) :
    Discovery.visitAll (Discovery.start (untaggedModels read.models) missingModel)
        (rootsOf inputs.bindings inputs.items) =
      ((discover inputs read).1.untagged, (discover inputs read).2) := by
  rw [← start_untagged, Discovery.visitAll_untagged]
  rfl

/-- Models that differ in instances only are discovered alike. -/
theorem discover_of_untagged {read read' : ReadModels}
    (same : untaggedModels read.models = untaggedModels read'.models) :
    (discover inputs read).1.untagged = (discover inputs read').1.untagged ∧
      (discover inputs read).2 = (discover inputs read').2 := by
  have both := visitAll_start_untagged inputs read
  rw [same, visitAll_start_untagged] at both
  exact ⟨(Prod.mk.inj both).1.symm, (Prod.mk.inj both).2.symm⟩

/-! ## Models in another order -/

section Reordered

variable {entries : List (ResourceId × String)} (permutation : entries.Perm inputs.models.toList)

include permutation

theorem found_untagged :
    (discover inputs (ReadModels.ofEntries entries).1).1.untagged =
        (Direct.found inputs).untagged ∧
      (discover inputs (ReadModels.ofEntries entries).1).2 =
        (discover inputs (ReadModels.ofTexts inputs.models).1).2 :=
  discover_of_untagged (ReadModels.untaggedModels_ofEntries permutation)

theorem mem_referenced_iff (id : ResourceId) :
    id ∈ (discover inputs (ReadModels.ofEntries entries).1).1.referenced ↔
      id ∈ (Direct.found inputs).referenced := by
  rw [Std.ExtTreeMap.mem_iff_contains, ← Discovery.isReferenced_untagged,
    (found_untagged permutation).1, Discovery.isReferenced_untagged,
    ← Std.ExtTreeMap.mem_iff_contains]

theorem size_models :
    (ReadModels.ofEntries entries).1.models.size =
      (ReadModels.ofTexts inputs.models).1.models.size := by
  have same := congrArg Std.ExtTreeMap.size (ReadModels.untaggedModels_ofEntries permutation)
  rw [size_untaggedModels, size_untaggedModels] at same
  exact same

theorem size_referenced :
    (discover inputs (ReadModels.ofEntries entries).1).1.referenced.size =
      (Direct.found inputs).referenced.size := by
  have same := congrArg (fun found => found.referenced.size) (found_untagged permutation).1
  exact (size_untaggedModels _).symm.trans (same.trans (size_untaggedModels _))

theorem unreferenced_eq_of_perm :
    (discover inputs (ReadModels.ofEntries entries).1).1.unreferenced =
      (Direct.found inputs).unreferenced := by
  rw [← Discovery.unreferenced_untagged, (found_untagged permutation).1,
    Discovery.unreferenced_untagged]

/-- The chains of the models that are found do not depend on the order in which
the files were read. -/
theorem chain_eq_of_perm (id : ResourceId) :
    (ModelSet.ofDiscovery (discover inputs (ReadModels.ofEntries entries).1).1).chain id =
      (ModelSet.ofDiscovery (Direct.found inputs)).chain id := by
  have settled := (Direct.settled_discover inputs (ReadModels.ofEntries entries).1).1
  have settled' := Direct.found_settled inputs
  have holds := Direct.holds_discover inputs permutation
  have holds' := Direct.found_holds inputs
  have referenced_iff := mem_referenced_iff permutation id
  by_cases referenced : id ∈ (Direct.found inputs).referenced
  · rw [Discovery.chain_eq settled holds (referenced_iff.mpr referenced),
      Discovery.chain_eq settled' holds' referenced]
  · rw [Discovery.chain_of_unreferenced settled.parentless (mt referenced_iff.mp referenced),
      Discovery.chain_of_unreferenced settled'.parentless referenced, holds.missing,
      holds'.missing]

end Reordered

/-! ## The whole reload -/

/-- The generation of some inputs, from what the stages before came to. -/
def gather (inputs : ReloadInputs) (read : ReadModels × List Warning)
    (found : Discovery × List Warning) (unreferenced : List ResourceId)
    (baked : Batch × List Warning) : Snapshot × List Warning :=
  ({ registry := inputs.registry
     dispatch := dispatch inputs.registry baked.1
     itemModels := baked.1.itemModels
     missingModel := baked.1.missingModel
     groups := (groups inputs).1
     atlases := (atlases inputs).1
     missingTextures := baked.1.missingTextures
     unreferenced := unreferenced
     stats :=
      { loadedModels := read.1.models.size
        failedModels := read.1.failed
        referencedModels := found.1.referenced.size
        dispatchMisses := (unbaked inputs.registry baked.1.stateModels).length
        bake := baked.1.stats } },
    read.2 ++ (found.2 ++ (groups inputs).2 ++ (atlases inputs).2 ++ baked.2
      ++ baked.1.missingTextures.warnings
      ++ dispatchWarnings inputs.registry baked.1.stateModels))

/-- The generation of some inputs, with everything gone through in some order. -/
def snapshotIn (orders : Orders) (inputs : ReloadInputs) : Snapshot × List Warning :=
  let read := ReadModels.ofTextsIn orders inputs.models
  let found := discoverIn orders inputs read.1
  gather inputs read found (unreferencedIn orders found.1)
    (Bakery.bakeAllIn ⟨ModelSet.ofDiscovery found.1, (atlases inputs).1⟩ orders
      inputs.bindings inputs.items)

/-- The complaints of a reload after those about its models. -/
def laterWarnings (inputs : ReloadInputs) : List Warning :=
  (discover inputs (ReadModels.ofTexts inputs.models).1).2 ++ (groups inputs).2
    ++ (atlases inputs).2 ++ (Batch.bakeAll (Direct.bakery inputs) inputs.bindings inputs.items).2
    ++ (Direct.batch inputs).missingTextures.warnings
    ++ dispatchWarnings inputs.registry (Direct.batch inputs).stateModels

theorem snapshot_warnings (inputs : ReloadInputs) :
    (snapshot inputs).2 = (ReadModels.ofTexts inputs.models).2 ++ laterWarnings inputs := by
  simp only [laterWarnings, ← List.append_assoc]
  rfl

/-- All orders are lost, but for the one in which models are complained about. -/
theorem snapshotIn_eq (orders : Orders) (inputs : ReloadInputs) :
    snapshotIn orders inputs =
      ((snapshot inputs).1,
        (ReadModels.ofTextsIn orders inputs.models).2 ++ laterWarnings inputs) := by
  have permutation := ReadModels.finishedIn_perm orders inputs.models
  have baked := Batch.bakeAll_congr (atlases inputs).1 (chain_eq_of_perm permutation)
    inputs.bindings inputs.items
  simp only [snapshotIn, ReadModels.ofTextsIn_eq, discoverIn_eq, unreferencedIn_eq,
    Bakery.bakeAllIn_eq, baked, gather, size_models permutation, size_referenced permutation,
    ReadModels.failed_ofEntries permutation, unreferenced_eq_of_perm permutation,
    (found_untagged permutation).2]
  rfl

/-- Two reloads of the same inputs differ, whatever the orders in which they go
through things, in the instances that hold models and in the order of the
complaints about models that cannot be read. One of these orders is the one in
which everything is listed. -/
theorem snapshotIn_indifferent (inputs : ReloadInputs) (orders others : Orders) :
    let read := fun run => ReadModels.ofTextsIn run inputs.models
    let found := fun run => (discoverIn run inputs (read run).1).1
    untaggedModels (read orders).1.models = untaggedModels (read others).1.models ∧
    (read orders).1.failed = (read others).1.failed ∧
    (found orders).untagged = (found others).untagged ∧
    unreferencedIn orders (found orders) = unreferencedIn others (found others) ∧
    (snapshotIn orders inputs).1 = (snapshotIn others inputs).1 ∧
    (∃ later, (snapshotIn orders inputs).2 = (read orders).2 ++ later ∧
      (snapshotIn others inputs).2 = (read others).2 ++ later) ∧
    (read orders).2.Perm (read others).2 ∧
    (∀ warning ∈ (read orders).2, ∃ error, warning = .modelUnreadable error) ∧
    snapshotIn .asListed inputs = snapshot inputs := by
  have permutation := ReadModels.finishedIn_perm orders inputs.models
  have permutation' := ReadModels.finishedIn_perm others inputs.models
  simp only [ReadModels.ofTextsIn_eq, discoverIn_eq, unreferencedIn_eq]
  refine ⟨?models, ?failed, ?found, ?unreferenced, ?snapshot, ?warnings, ?order, ?kind, ?listed⟩
  case models =>
    rw [ReadModels.untaggedModels_ofEntries permutation,
      ReadModels.untaggedModels_ofEntries permutation']
  case failed =>
    rw [ReadModels.failed_ofEntries permutation, ReadModels.failed_ofEntries permutation']
  case found => rw [(found_untagged permutation).1, (found_untagged permutation').1]
  case unreferenced =>
    rw [unreferenced_eq_of_perm permutation, unreferenced_eq_of_perm permutation']
  case snapshot => rw [snapshotIn_eq, snapshotIn_eq]
  case warnings =>
    refine ⟨laterWarnings inputs, ?_, ?_⟩
    · rw [snapshotIn_eq, ReadModels.ofTextsIn_eq]
    · rw [snapshotIn_eq, ReadModels.ofTextsIn_eq]
  case order =>
    exact (ReadModels.warnings_ofEntries permutation).trans
      (ReadModels.warnings_ofEntries permutation').symm
  case kind => exact fun _ => ReadModels.unreadable_of_mem_warnings
  case listed =>
    rw [snapshotIn_eq, ReadModels.ofTextsIn_eq]
    exact Prod.ext rfl (snapshot_warnings inputs).symm

end Prepare

end PackModels
