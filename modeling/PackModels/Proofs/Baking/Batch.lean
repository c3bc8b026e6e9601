import PackModels.Baking.Batch
import PackModels.Proofs.Baking.Cache

/-!
Contract: a whole batch of bakes holds what baking each key by itself would.

`Kept` says of the keys done so far that each is held with what its assembly
builds from the cache, or is left out because its assembly fails on fresh
bakes, and that these failures have been counted. One more key keeps this, so
it holds after a table of keys. The cache grows from the first bake to the
last, hence the last cache accounts for everything in a batch.
-/

namespace PackModels.Batch

open Bakery

variable {bakery : Bakery}

/-! ## One table of bindings -/

section Table

variable {Key Source Value : Type} [Ord Key] [Std.TransOrd Key]
  {assembly : Source → Assembly Value}
  {bake : Key → Source → BakeState → Except BakeError Value × BakeState}
  {complaint : Key → BakeError → Warning}

/-- The bindings that cannot be baked. -/
def failures (bakery : Bakery) (assembly : Source → Assembly Value)
    (entries : List (Key × Source)) : Nat :=
  entries.countP (fun entry => ((assembly entry.2).build bakery.afresh).isNone)

/-- What is held for a key is built from the cache; nothing is held for one
whose assembly fails. -/
def Accounts (bakery : Bakery) (assembly : Source → Assembly Value) (find : Finder)
    (held : Option Value) (source : Source) : Prop :=
  (∃ value, held = some value ∧ (assembly source).build find = some value) ∨
    (held = none ∧ (assembly source).build bakery.afresh = none)

/-- What holds of a batch after some bindings. -/
structure Kept (bakery : Bakery) (assembly : Source → Assembly Value)
    (first : BakeState) (failedBefore : Nat) (done : List (Key × Source))
    (progress : Progress Key Value) : Prop where
  faithful : bakery.Faithful progress.state
  grows : first.Grows progress.state
  accounts : ∀ entry ∈ done,
    Accounts bakery assembly progress.state.find progress.models[entry.1]? entry.2
  others : ∀ key, key ∉ done.map Prod.fst → progress.models[key]? = none
  failed : progress.failed = failedBefore + failures bakery assembly done

theorem kept_start {state : BakeState} (faithful : bakery.Faithful state) (failed : Nat)
    (warnings : List Warning) :
    Kept bakery assembly state failed ([] : List (Key × Source)) ⟨state, ∅, failed, warnings⟩ where
  faithful := faithful
  grows := .refl state
  accounts := by
    intro entry member
    cases member
  others := by
    intro key _
    simp
  failed := rfl

theorem Accounts.of_grows {held : Option Value} {source : Source} {before after : BakeState}
    (accounts : Accounts bakery assembly before.find held source)
    (grows : before.Grows after) : Accounts bakery assembly after.find held source := by
  rcases accounts with ⟨value, same, built⟩ | lost
  · exact .inl ⟨value, same, build_of_grows (assembly source) grows built⟩
  · exact .inr lost

/-- A faithful cache builds exactly what is held. -/
theorem Accounts.eq_build {held : Option Value} {source : Source} {state : BakeState}
    (accounts : Accounts bakery assembly state.find held source)
    (faithful : bakery.Faithful state) : held = (assembly source).build state.find := by
  rcases accounts with ⟨value, same, built⟩ | ⟨same, fails⟩
  · rw [same, built]
  · cases built : (assembly source).build state.find with
    | none => exact same
    | some value =>
        have afresh := build_afresh (assembly source) faithful built
        rw [fails] at afresh
        cases afresh

/-- Fresh bakes build exactly what is held, apart from which instances are
shared. -/
theorem Accounts.map_untagged {held : Option Value} {source : Source} {state : BakeState}
    (accounts : Accounts bakery assembly state.find held source)
    (faithful : bakery.Faithful state) :
    held.map ((assembly source).map Shared.untagged) = (assembly source).build bakery.afresh := by
  rcases accounts with ⟨value, same, built⟩ | ⟨same, fails⟩
  · rw [same, Option.map_some, build_afresh (assembly source) faithful built]
  · rw [same, Option.map_none, fails]

variable [Std.LawfulEqOrd Key]

/-- One more binding. -/
theorem Kept.step {first : BakeState} {failedBefore : Nat} {done : List (Key × Source)}
    {progress : Progress Key Value}
    (kept : Kept bakery assembly first failedBefore done progress)
    (bakes : ∀ key source state, bakery.Faithful state →
      Outcome bakery (assembly source) state (bake key source state))
    {entry : Key × Source} (fresh : entry.1 ∉ done.map Prod.fst) :
    Kept bakery assembly first failedBefore (done ++ [entry])
      (bakeOne bake complaint progress entry) := by
  have outcome := bakes entry.1 entry.2 progress.state kept.faithful
  have apart : ∀ other ∈ done, other.1 ≠ entry.1 := by
    intro other member same
    exact fresh (same ▸ List.mem_map_of_mem member)
  unfold bakeOne
  generalize bake entry.1 entry.2 progress.state = baked at outcome
  obtain ⟨result, state⟩ := baked
  have grows := outcome.grows
  cases result with
  | ok value =>
      have built := outcome.built value rfl
      have counted : ((assembly entry.2).build bakery.afresh).isNone = false := by
        rw [build_afresh (assembly entry.2) outcome.faithful built]
        rfl
      refine ⟨outcome.faithful, kept.grows.trans grows, ?accounts, ?others, ?failed⟩
      case accounts =>
        intro other member
        rcases List.mem_append.mp member with before | last
        · rw [Table.getElem?_insert_of_ne (apart other before)]
          exact (kept.accounts other before).of_grows grows
        · rw [List.mem_singleton.mp last, Std.ExtTreeMap.getElem?_insert_self]
          exact .inl ⟨value, rfl, built⟩
      case others =>
        intro key absent
        rw [List.map_append, List.mem_append, not_or] at absent
        have different : key ≠ entry.1 := by
          intro same
          exact absent.2 (by simp [same])
        rw [Table.getElem?_insert_of_ne different]
        exact kept.others key absent.1
      case failed =>
        rw [kept.failed, failures, failures, List.countP_append, List.countP_singleton, counted]
        simp
  | error error =>
      have fails := outcome.failed error rfl
      have counted : ((assembly entry.2).build bakery.afresh).isNone = true := by
        rw [fails]
        rfl
      refine ⟨outcome.faithful, kept.grows.trans grows, ?accounts', ?others', ?failed'⟩
      case accounts' =>
        intro other member
        rcases List.mem_append.mp member with before | last
        · exact (kept.accounts other before).of_grows grows
        · rw [List.mem_singleton.mp last]
          exact .inr ⟨kept.others entry.1 fresh, fails⟩
      case others' =>
        intro key absent
        rw [List.map_append, List.mem_append, not_or] at absent
        exact kept.others key absent.1
      case failed' =>
        change progress.failed + 1 = _
        rw [kept.failed, failures, failures, List.countP_append, List.countP_singleton, counted]
        simp
        omega

/-- Every binding of a list of distinct keys. -/
theorem Kept.foldl {first : BakeState} {failedBefore : Nat} {done : List (Key × Source)}
    {progress : Progress Key Value}
    (kept : Kept bakery assembly first failedBefore done progress)
    (bakes : ∀ key source state, bakery.Faithful state →
      Outcome bakery (assembly source) state (bake key source state))
    (entries : List (Key × Source)) (distinct : ((done ++ entries).map Prod.fst).Nodup) :
    Kept bakery assembly first failedBefore (done ++ entries)
      (entries.foldl (bakeOne bake complaint) progress) := by
  induction entries generalizing done progress with
  | nil =>
      rw [List.append_nil]
      exact kept
  | cons entry rest inductionHypothesis =>
      have regroup : done ++ entry :: rest = (done ++ [entry]) ++ rest := by simp
      have fresh := Table.not_mem_of_nodup distinct
      rw [regroup] at distinct ⊢
      exact inductionHypothesis (kept.step bakes fresh) distinct

variable {table : Table Key Source} {first last : BakeState} {failedBefore : Nat}
  {progress : Progress Key Value}

theorem kept_table (faithful : bakery.Faithful first)
    (bakes : ∀ key source state, bakery.Faithful state →
      Outcome bakery (assembly source) state (bake key source state)) :
    Kept bakery assembly first failedBefore table.toList
      (table.toList.foldl (bakeOne bake complaint) ⟨first, ∅, failedBefore, []⟩) := by
  have distinct : (([] ++ table.toList).map Prod.fst).Nodup := table.nodup_toList
  exact (kept_start faithful failedBefore []).foldl bakes table.toList distinct

theorem Kept.accounts_of_bound
    (kept : Kept bakery assembly first failedBefore table.toList progress)
    (grows : progress.state.Grows last) {key : Key} {source : Source}
    (bound : table[key]? = some source) :
    Accounts bakery assembly last.find progress.models[key]? source :=
  (kept.accounts (key, source) (Std.ExtTreeMap.mem_toList_iff_getElem?_eq_some.mpr bound)).of_grows
    grows

theorem Kept.eq_none_of_unbound
    (kept : Kept bakery assembly first failedBefore table.toList progress) {key : Key}
    (unbound : table[key]? = none) : progress.models[key]? = none := by
  apply kept.others
  exact Table.not_mem_toList_of_getElem? unbound

end Table

/-! ## The whole batch -/

/-- Where the bake of the missing model is found. -/
def missingKey : BakeKey :=
  ⟨ModelDef.missingId, Placement.identity⟩

/-- The missing model, baked without a cache or, where that fails, by hand. -/
def missingAfresh (bakery : Bakery) : BakedModel :=
  match bakery.afresh missingKey with
  | some model => model.value
  | none =>
      Bake.missingModel
        (bakery.atlases.lookUp ModelDef.missingId.render Material.missing ∅).1

theorem bakeMissing_faithful (bakery : Bakery) :
    bakery.Faithful (bakeMissing bakery).2.1 ∧
      (bakeMissing bakery).1.value = missingAfresh bakery := by
  have outcome : Outcome bakery (single missingKey) .start
      (bakery.bake ModelDef.missingId Placement.identity .start) :=
    bake_outcome faithful_start missingKey
  unfold bakeMissing missingAfresh
  generalize bakery.bake ModelDef.missingId Placement.identity .start = baked at outcome
  obtain ⟨result, state⟩ := baked
  cases result with
  | ok model =>
      have afresh := outcome.faithful.fresh missingKey model (outcome.built model rfl)
      rw [afresh]
      exact ⟨outcome.faithful, rfl⟩
  | error error =>
      have fails : bakery.afresh missingKey = none := outcome.failed error rfl
      rw [fails]
      dsimp only
      rw [bakery.atlases.lookUp_sprite ModelDef.missingId.render Material.missing _ ∅]
      exact ⟨outcome.faithful.counted (Nat.le_refl _), rfl⟩

/-- One faithful cache accounts for everything that a batch holds. -/
structure Complete (bakery : Bakery) (bindings : BindingTable)
    (items : Table ResourceId ItemBinding) (batch : Batch) (last : BakeState) : Prop where
  faithful : bakery.Faithful last
  states : ∀ (id : StateId) binding, bindings[id]? = some binding →
    Accounts bakery Binding.assembly last.find batch.stateModels[id]? binding
  unbound : ∀ id : StateId, bindings[id]? = none → batch.stateModels[id]? = none
  shown : ∀ (id : ResourceId) item, items[id]? = some item →
    Accounts bakery ItemBinding.assembly last.find batch.itemModels[id]? item
  unlisted : ∀ id : ResourceId, items[id]? = none → batch.itemModels[id]? = none
  failed : batch.stats.failedBindings =
    failures bakery Binding.assembly bindings.toList
      + failures bakery ItemBinding.assembly items.toList
  missing : batch.missingModel.value = missingAfresh bakery

theorem bakeAll_complete (bakery : Bakery) (bindings : BindingTable)
    (items : Table ResourceId ItemBinding) :
    ∃ last, Complete bakery bindings items (bakeAll bakery bindings items).1 last := by
  obtain ⟨faithful, missing⟩ := bakeMissing_faithful bakery
  let after := bindings.toList.foldl (bakeState bakery) ⟨(bakeMissing bakery).2.1, ∅, 0, []⟩
  have states : Kept bakery Binding.assembly (bakeMissing bakery).2.1 0 bindings.toList after :=
    kept_table faithful (fun id binding _ later => bakeBinding_outcome id.render binding later)
  have shown : Kept bakery ItemBinding.assembly after.state after.failed items.toList
      (items.toList.foldl (Batch.bakeItem bakery) ⟨after.state, ∅, after.failed, []⟩) :=
    kept_table states.faithful (fun _ item _ later => bakeItem_outcome later item)
  have failed : after.failed = failures bakery Binding.assembly bindings.toList := by
    rw [states.failed, Nat.zero_add]
  exact ⟨_, {
    faithful := shown.faithful
    states := fun _ _ => states.accounts_of_bound shown.grows
    unbound := fun _ => states.eq_none_of_unbound
    shown := fun _ _ => shown.accounts_of_bound (.refl _)
    unlisted := fun _ => shown.eq_none_of_unbound
    failed := shown.failed.trans (congrArg (· + _) failed)
    missing := missing }⟩

section Holding

variable {bindings : BindingTable} {items : Table ResourceId ItemBinding} {batch : Batch}
  {last : BakeState}

/-- What is held for a state is built from the last cache. -/
theorem Complete.stateModels_eq (complete : Complete bakery bindings items batch last)
    (id : StateId) :
    batch.stateModels[id]? = bindings[id]?.bind (Binding.assemble last.find) := by
  cases bound : bindings[id]? with
  | none => rw [complete.unbound id bound, Option.bind_none]
  | some binding => exact (complete.states id binding bound).eq_build complete.faithful

theorem Complete.map_stateModels (complete : Complete bakery bindings items batch last)
    (id : StateId) : (batch.stateModels[id]?).map StateModel.untagged =
      bindings[id]?.bind (Binding.assemble bakery.afresh) := by
  cases bound : bindings[id]? with
  | none => rw [complete.unbound id bound, Option.map_none, Option.bind_none]
  | some binding => exact (complete.states id binding bound).map_untagged complete.faithful

theorem Complete.map_itemModels (complete : Complete bakery bindings items batch last)
    (id : ResourceId) : (batch.itemModels[id]?).map ItemModel.untagged =
      items[id]?.bind (ItemBinding.assemble bakery.afresh) := by
  cases bound : items[id]? with
  | none => rw [complete.unlisted id bound, Option.map_none, Option.bind_none]
  | some item => exact (complete.shown id item bound).map_untagged complete.faithful

end Holding

end PackModels.Batch
