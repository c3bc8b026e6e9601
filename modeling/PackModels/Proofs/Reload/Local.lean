import PackModels.Proofs.Binding.Lookup
import PackModels.Proofs.Direct.Snapshot

/-!
Contract: an edit of one file reaches only what asks for it.

All files of a reload share one discovery, one cache and one table of bindings.
Still the file of one block decides nothing about the bindings and the models
of other blocks, and the file of one model decides nothing about a state that
does not come to this model from any of its variants along the parents. Two
reloads are compared whose files agree except at one id, where the file may be
another one, a broken one or none at all.

Owns: `AgreeOff` and `Sources`, what the two reloads are made from.
-/

namespace PackModels

open PackModels.Lineage (Reaches IsParent)

/-- Whether two tables hold the same under every key but one. -/
def Table.AgreeOff {Key Value : Type} [Ord Key] [Std.TransOrd Key] (key : Key)
    (left right : Table Key Value) : Prop :=
  ∀ other, other ≠ key → left[other]? = right[other]?

namespace Table

variable {Key Value : Type} [Ord Key] [Std.TransOrd Key] [Std.LawfulEqOrd Key]

theorem agreeOff_insert (key : Key) (value : Value) (table : Table Key Value) :
    AgreeOff key table (table.insert key value) :=
  fun _ apart => (getElem?_insert_of_ne apart).symm

theorem agreeOff_erase (key : Key) (table : Table Key Value) :
    AgreeOff key table (table.erase key) := by
  intro other apart
  have different : compare key other ≠ .eq := by
    intro same
    exact apart (Std.compare_eq_iff_eq.mp same).symm
  rw [Std.ExtTreeMap.getElem?_erase, if_neg different]

end Table

/-- What a reload starts from: the definitions of blocks, the files of models
and of states, the bindings of items, the source of tints and the atlases. -/
structure Sources where
  definitions : List BlockDef
  models : Table ResourceId String
  states : Table ResourceId String
  items : Table ResourceId ItemBinding
  tints : Option TintSource
  stitched : Option (AtlasSet × List Warning)

namespace Sources

variable (sources : Sources)

def registry : Registry :=
  (Registry.ofDefinitions sources.definitions).1

def bindings : BindingTable :=
  (BindingTable.load sources.registry sources.states).1

def inputs : ReloadInputs where
  models := sources.models
  registry := sources.registry
  bindings := sources.bindings
  items := sources.items
  tints := sources.tints
  stitched := sources.stitched

/-- What a reload serves for a state, apart from which of the served models are
one instance. -/
def served (state : StateHandle) : StateModel :=
  ((Prepare.snapshot sources.inputs).1.stateModel state).untagged

end Sources

namespace Direct

/-! ## Chains that keep clear of an edit -/

section Chains

variable {files files' : Table ResourceId ModelDef}

/-- Whether all ids from one up along the parents are defined alike. -/
def Alike (files files' : Table ResourceId ModelDef) (id : ResourceId) : Prop :=
  ∀ upper, Reaches (parent? files) id upper → own? files upper = own? files' upper

theorem Alike.parent? {id : ResourceId} (alike : Alike files files' id) :
    Direct.parent? files id = Direct.parent? files' id := by
  unfold Direct.parent?
  rw [alike id .refl]

theorem Alike.above {id upper : ResourceId} (alike : Alike files files' id)
    (reaches : Reaches (Direct.parent? files) id upper) : Alike files files' upper :=
  fun higher onward => alike higher (reaches.trans onward)

theorem Alike.lineage_eq {id : ResourceId} (alike : Alike files files' id)
    (behind : List ResourceId) : lineage files behind id = lineage files' behind id := by
  induction behind, id using lineage.induct files with
  | case1 behind id met => rw [lineage_of_mem met, lineage_of_mem met]
  | case2 behind id new last =>
      rw [lineage_of_none new last, lineage_of_none new (alike.parent? ▸ last)]
  | case3 behind id new parent isParent inductionHypothesis =>
      rw [lineage_of_some new isParent, lineage_of_some new (alike.parent? ▸ isParent),
        inductionHypothesis (alike.above (.single isParent))]

theorem Alike.isOnLoop_eq {id : ResourceId} (alike : Alike files files' id) :
    isOnLoop files id = isOnLoop files' id := by
  unfold isOnLoop
  rw [← alike.lineage_eq, Bool.eq_iff_iff, List.any_eq_true, List.any_eq_true]
  apply exists_congr
  intro lower
  apply and_congr_right
  intro member
  rw [(alike.above (mem_lineage_iff.mp member)).parent?]

theorem Alike.usable?_eq {id : ResourceId} (alike : Alike files files' id) :
    usable? files id = usable? files' id := by
  unfold usable?
  rw [alike.isOnLoop_eq, alike id .refl]

theorem along_congr {ids : List ResourceId}
    (same : ∀ id ∈ ids, usable? files id = usable? files' id) :
    along files ids = along files' ids := by
  induction ids with
  | nil => rfl
  | cons id above inductionHypothesis =>
      rw [along, along, same id List.mem_cons_self,
        inductionHypothesis (fun upper member => same upper (List.mem_cons_of_mem _ member))]

theorem Alike.chain_eq {id : ResourceId} (alike : Alike files files' id) :
    chain files id = chain files' id := by
  unfold chain
  rw [← alike.lineage_eq]
  apply along_congr
  intro upper member
  exact (alike.above (mem_lineage_iff.mp member)).usable?_eq

/-- Where the files agree except at one id, all is alike from where this id is
not reached. -/
theorem alike_of_agreeOff {texts texts' : Table ResourceId String} {edited id : ResourceId}
    (agree : Table.AgreeOff edited texts texts')
    (clear : ¬ Reaches (parent? (Direct.files texts)) id edited) :
    Alike (Direct.files texts) (Direct.files texts') id := by
  intro upper reaches
  have apart : upper ≠ edited := by
    rintro rfl
    exact clear reaches
  unfold own? Direct.files
  rw [Std.ExtTreeMap.getElem?_filterMap', Std.ExtTreeMap.getElem?_filterMap', agree upper apart]

/-- No file defines the missing model. -/
theorem alike_missingId (files files' : Table ResourceId ModelDef) :
    Alike files files' ModelDef.missingId := by
  intro upper reaches
  have undefined : ∀ files, own? files ModelDef.missingId = none := by
    intro files
    rw [own?, if_pos rfl]
  have top : parent? files ModelDef.missingId = none := by
    rw [parent?, undefined, Option.bind_none]
  rcases Relation.ReflTransGen.cases_head reaches with rfl | ⟨parent, isParent, _⟩
  · rw [undefined, undefined]
  · rw [IsParent, top] at isParent
    cases isParent

end Chains

/-! ## What is served -/

section Served

variable {inputs inputs' : ReloadInputs}

/-- What is served for a state is what the state comes to alone. -/
theorem untagged_stateModel (inputs : ReloadInputs) (state : StateHandle) :
    ((Prepare.snapshot inputs).1.stateModel state).untagged = stateModel inputs state := by
  rw [snapshot_stateModel, stateModel, ← map_bakedFor?]
  cases Prepare.bakedFor? inputs.registry (batch inputs).stateModels state with
  | none =>
      rw [Option.map_none, Option.getD_none, Option.getD_none, StateModel.untagged,
        StateModel.map, missing_eq]
  | some model => rw [Option.map_some, Option.getD_some, Option.getD_some]

theorem atlases_congr (atlases : inputs.stitched = inputs'.stitched) :
    Direct.atlases inputs = Direct.atlases inputs' := by
  unfold Direct.atlases
  rw [atlases]

theorem bake?_congr (atlases : inputs.stitched = inputs'.stitched) {key : BakeKey}
    (alike : Alike (files inputs.models) (files inputs'.models) key.id) :
    bake? inputs key = bake? inputs' key := by
  rw [bake?, bake?, atlases_congr atlases, alike.chain_eq]

theorem missingModel_congr (atlases : inputs.stitched = inputs'.stitched) :
    missingModel inputs = missingModel inputs' := by
  have baked : bake? inputs Batch.missingKey = bake? inputs' Batch.missingKey :=
    bake?_congr atlases (alike_missingId _ _)
  rw [missingModel, missingModel, baked, atlases_congr atlases]

/-- A state that has one binding in two reloads, all of whose models are alike,
comes to the same in both. -/
theorem stateModel_congr (inputs inputs' : ReloadInputs)
    (atlases : inputs.stitched = inputs'.stitched) (state : StateHandle)
    (bound : Look.bindingOf? inputs.registry inputs.bindings state =
      Look.bindingOf? inputs'.registry inputs'.bindings state)
    (alike : ∀ binding, Look.bindingOf? inputs.registry inputs.bindings state = some binding →
      ∀ root ∈ binding.models, Alike (files inputs.models) (files inputs'.models) root) :
    stateModel inputs state = stateModel inputs' state := by
  unfold stateModel baked?
  rw [missingModel_congr atlases, ← bound]
  cases isBound : Look.bindingOf? inputs.registry inputs.bindings state with
  | none => rw [Option.bind_none, Option.bind_none]
  | some binding =>
      have same : Binding.assemble (bake? inputs) binding =
          Binding.assemble (bake? inputs') binding := by
        apply binding.assembly.congr
        intro key member
        obtain ⟨variant, isVariant, rfl⟩ := List.mem_map.mp member
        exact bake?_congr atlases (alike binding isBound _ (List.mem_map_of_mem isVariant))
      rw [Option.bind_some, Option.bind_some, same]

end Served

end Direct

/-! ## Edits of one file -/

namespace Sources

variable (sources : Sources)

theorem served_eq (state : StateHandle) :
    sources.served state = Direct.stateModel sources.inputs state :=
  Direct.untagged_stateModel sources.inputs state

/-- The file of one block binds no state of another. -/
theorem bindings_of_agreeOff {block : ResourceId} {states' : Table ResourceId String}
    (agree : Table.AgreeOff block sources.states states') {id : StateId}
    (apart : id.block ≠ block) :
    ({ sources with states := states' } : Sources).bindings[id]? = sources.bindings[id]? := by
  have enumerated := Registry.enumerated_ofDefinitions sources.definitions
  unfold bindings registry
  rw [BindingTable.getElem?_load enumerated, BindingTable.getElem?_load enumerated,
    agree id.block apart]

theorem bindingOf?_of_agreeOff {block : ResourceId} {states' : Table ResourceId String}
    (agree : Table.AgreeOff block sources.states states') {state : StateHandle}
    (elsewhere : (sources.registry.blockOf? state).map BlockDef.id ≠ some block) :
    Look.bindingOf? sources.registry ({ sources with states := states' } : Sources).bindings state =
      Look.bindingOf? sources.registry sources.bindings state := by
  unfold Look.bindingOf?
  cases isNamed : sources.registry.stateId? state with
  | none => rw [Option.bind_none, Option.bind_none]
  | some id =>
      obtain ⟨owner, belongs, _⟩ := Option.bind_eq_some_iff.mp isNamed
      have apart : id.block ≠ block := by
        intro same
        rw [belongs, Option.map_some, ← same,
          Registry.block_of_stateId? isNamed belongs] at elsewhere
        exact elsewhere rfl
      rw [Option.bind_some, Option.bind_some, sources.bindings_of_agreeOff agree apart]

/-- An edit of the file of one block leaves the bindings of all other blocks and
what is served for their states as they are. An edit of the file of one model
leaves as it is what is served for a state that does not come to this model from
any of its variants along the parents that the files give. -/
theorem served_of_agreeOff :
    (∀ block states', Table.AgreeOff block sources.states states' →
      (∀ id : StateId, id.block ≠ block →
        ({ sources with states := states' } : Sources).bindings[id]? = sources.bindings[id]?) ∧
      ∀ state, (sources.registry.blockOf? state).map BlockDef.id ≠ some block →
        ({ sources with states := states' } : Sources).served state = sources.served state) ∧
    (∀ model models', Table.AgreeOff model sources.models models' →
      ∀ state,
        (∀ binding, Look.bindingOf? sources.registry sources.bindings state = some binding →
          ∀ root ∈ binding.models,
            ¬ Reaches (Direct.parent? (Direct.files sources.models)) root model) →
          ({ sources with models := models' } : Sources).served state = sources.served state) := by
  refine ⟨?states, ?models⟩
  case states =>
    intro block states' agree
    refine ⟨fun id apart => sources.bindings_of_agreeOff agree apart, ?served⟩
    intro state elsewhere
    rw [served_eq, served_eq]
    exact Direct.stateModel_congr ({ sources with states := states' } : Sources).inputs
      sources.inputs rfl state (sources.bindingOf?_of_agreeOff agree elsewhere)
      (fun _ _ _ _ _ _ => rfl)
  case models =>
    intro model models' agree state clear
    have same := Direct.stateModel_congr sources.inputs
      ({ sources with models := models' } : Sources).inputs rfl state rfl
      (fun binding isBound root member =>
        Direct.alike_of_agreeOff agree (clear binding isBound root member))
    rw [served_eq, served_eq, same]

/-- A state file that binds every state to one model. -/
def oneModel (model : String) : String :=
  "\x7b\"variants\":\x7b\"\":\x7b\"model\":\"" ++ model ++ "\"\x7d\x7d\x7d"

/-- A block of stone and one of dirt, whose model has that of stone as its
parent. -/
def stoneAndDirt : Sources where
  definitions := [.new (.inDefaultSpace "stone"), .new (.inDefaultSpace "dirt")]
  models := Table.ofPairs
    [(.inDefaultSpace "block/stone", "\x7b\x7d"),
      (.inDefaultSpace "block/dirt", "\x7b\"parent\":\"block/stone\"\x7d")]
  states := Table.ofPairs
    [(.inDefaultSpace "stone", oneModel "block/stone"),
      (.inDefaultSpace "dirt", oneModel "block/dirt")]
  items := ∅
  tints := none
  stitched := none

/-- Stone is served as before when the file of dirt is broken, and when the
model of dirt is removed. -/
theorem served_of_agreeOff_dirt :
    let stone : StateId := ⟨.inDefaultSpace "stone", ""⟩
    let broken := stoneAndDirt.states.insert (.inDefaultSpace "dirt") "["
    let removed := stoneAndDirt.models.erase (.inDefaultSpace "block/dirt")
    ({ stoneAndDirt with states := broken } : Sources).bindings[stone]? =
        some (.single ⟨.inDefaultSpace "block/stone", Placement.identity⟩) ∧
      ({ stoneAndDirt with states := broken } : Sources).served 0 = stoneAndDirt.served 0 ∧
      ({ stoneAndDirt with models := removed } : Sources).served 0 = stoneAndDirt.served 0 := by
  intro stone broken removed
  obtain ⟨states, models⟩ := served_of_agreeOff stoneAndDirt
  obtain ⟨bindings, served⟩ := states _ broken (Table.agreeOff_insert _ _ _)
  have bound : stoneAndDirt.bindings[stone]? =
      some (.single ⟨.inDefaultSpace "block/stone", Placement.identity⟩) := by
    decide +kernel
  refine ⟨(bindings stone (by decide)).trans bound, served 0 (by decide +kernel), ?_⟩
  apply models _ removed (Table.agreeOff_erase _ _)
  intro binding isBound root member reaches
  have isStone : Look.bindingOf? stoneAndDirt.registry stoneAndDirt.bindings 0 =
      some (.single ⟨.inDefaultSpace "block/stone", Placement.identity⟩) := by
    decide +kernel
  have top : Direct.parent? (Direct.files stoneAndDirt.models) (.inDefaultSpace "block/stone") =
      none := by
    decide +kernel
  rw [isStone, Option.some.injEq] at isBound
  rw [← isBound] at member
  rw [List.mem_singleton.mp member] at reaches
  rcases Relation.ReflTransGen.cases_head reaches with same | ⟨parent, isParent, _⟩
  · exact absurd same (by decide)
  · rw [IsParent, top] at isParent
    cases isParent

end Sources

end PackModels
