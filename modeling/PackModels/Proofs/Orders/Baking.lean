import PackModels.Baking.Batch
import PackModels.Proofs.Orders.Models

/-!
Contract: a load is baked alike in every order.

What is bound is listed in some order and then baked in the order of its keys,
and a bake does not depend on the order of the texture slots that it goes
through. So the same bakes are made one after another, and each of them has the
same number.

Owns: baking with the orders spelled out. `Baker` is a way to bake one model
through a cache, in which all else is baked.
-/

namespace PackModels

/-- A way to bake a model under a placement. -/
abbrev Baker : Type :=
  ResourceId → Placement → BakeState → Except BakeError (Shared BakedModel) × BakeState

namespace Baker

variable (bake : Baker)

def bakeEntries :
    List WeightedVariant → BakeState → Except BakeError (List WeightedModel) × BakeState
  | [], state => (.ok [], state)
  | entry :: rest, state =>
      match bake entry.variant.model entry.variant.placement state with
      | (.error error, after) => (.error error, after)
      | (.ok model, after) =>
          match bakeEntries rest after with
          | (.error error, last) => (.error error, last)
          | (.ok models, last) => (.ok (⟨entry.weight, model⟩ :: models), last)

mutual

def bakeBinding (name : String) :
    Binding → BakeState → Except BakeError StateModel × BakeState
  | .single variant, state =>
      match bake variant.model variant.placement state with
      | (.error error, after) => (.error error, after)
      | (.ok model, after) => (.ok (.single model), after)
  | .weighted entries, state =>
      match bakeEntries bake entries state with
      | (.error error, after) => (.error error, after)
      | (.ok models, after) =>
          match StateModel.ofWeighted? models with
          | some choice => (.ok choice, after)
          | none => (.error (.emptyChoice name), after)
  | .composite parts, state =>
      match bakeParts name parts state with
      | (.error error, after) => (.error error, after)
      | (.ok models, after) => (.ok (.composite models), after)

def bakeParts (name : String) :
    List Binding → BakeState → Except BakeError (List StateModel) × BakeState
  | [], state => (.ok [], state)
  | part :: rest, state =>
      match bakeBinding name part state with
      | (.error error, after) => (.error error, after)
      | (.ok model, after) =>
          match bakeParts name rest after with
          | (.error error, last) => (.error error, last)
          | (.ok models, last) => (.ok (model :: models), last)

end

def bakeItem (item : ItemBinding) (state : BakeState) :
    Except BakeError ItemModel × BakeState :=
  match item with
  | .empty => (.ok .empty, state)
  | .model id =>
      match bake id Placement.identity state with
      | (.error error, after) => (.error error, after)
      | (.ok model, after) => (.ok (.model model), after)

def bakeMissing (atlases : AtlasSet) : Shared BakedModel × BakeState × List Warning :=
  match bake ModelDef.missingId Placement.identity .start with
  | (.ok model, state) => (model, state, [])
  | (.error error, state) =>
      let looked := atlases.lookUp ModelDef.missingId.render Material.missing state.missed
      (⟨Batch.handBakedTag, Bake.missingModel looked.1⟩, { state with missed := looked.2 },
        [.bakeFailed ModelDef.missingId.render error.message])

/-- Bakes the missing model, then some states and then some items, in the order
given. -/
def bakeAll (atlases : AtlasSet) (states : List (StateId × Binding))
    (items : List (ResourceId × ItemBinding)) : Batch × List Warning :=
  let missing := bakeMissing bake atlases
  let bound := states.foldl
    (Batch.bakeOne (fun id => bakeBinding bake id.render)
      (fun id error => .bakeFailed id.render error.message))
    ⟨missing.2.1, ∅, 0, []⟩
  let shown := items.foldl
    (Batch.bakeOne (fun _ => bakeItem bake) (fun id error => .itemBakeFailed id error.message))
    ⟨bound.state, ∅, bound.failed, []⟩
  (⟨missing.1, bound.models, shown.models, shown.state.missed,
      ⟨shown.state.cache.hits, shown.state.cache.misses, shown.state.cache.entries.size,
        shown.failed⟩⟩,
    missing.2.2 ++ bound.warnings ++ shown.warnings)

end Baker

namespace Bakery

variable (bakery : Bakery)

/-! ## Baking through the cache of a bakery -/

theorem bakeEntries_through (entries : List WeightedVariant) (state : BakeState) :
    Baker.bakeEntries bakery.bake entries state = bakery.bakeEntries entries state := by
  induction entries generalizing state with
  | nil => rfl
  | cons entry rest inductionHypothesis =>
      simp only [Baker.bakeEntries, inductionHypothesis]
      rfl

mutual

theorem bakeBinding_through (name : String) : (binding : Binding) → (state : BakeState) →
    Baker.bakeBinding bakery.bake name binding state = bakery.bakeBinding name binding state
  | .single variant, state => by
      rw [Baker.bakeBinding]
      rfl
  | .weighted entries, state => by
      rw [Baker.bakeBinding, bakeEntries_through]
      rfl
  | .composite parts, state => by
      rw [Baker.bakeBinding, bakeParts_through name parts state]
      rfl

theorem bakeParts_through (name : String) : (parts : List Binding) → (state : BakeState) →
    Baker.bakeParts bakery.bake name parts state = bakery.bakeParts name parts state
  | [], state => by
      rw [Baker.bakeParts, bakeParts]
  | part :: rest, state => by
      simp only [Baker.bakeParts, bakeBinding_through name part, bakeParts_through name rest]
      rfl

end

/-- A load is baked through the cache of its bakery. -/
theorem bakeAll_through (bindings : BindingTable) (items : Table ResourceId ItemBinding) :
    Baker.bakeAll bakery.bake bakery.atlases bindings.toList items.toList =
      Batch.bakeAll bakery bindings items := by
  have binding : Baker.bakeBinding bakery.bake = bakery.bakeBinding := by
    funext name binding state
    exact bakery.bakeBinding_through name binding state
  unfold Baker.bakeAll
  rw [binding]
  rfl

/-! ## Baking in some order -/

variable (orders : Orders)

/-- Bakes a model under a placement, or finds the bake that was made before. The
number of a bake tells the orders in which its slots are gone through. -/
def bakeIn : Baker :=
  fun id placement state =>
    let key : BakeKey := ⟨id, placement⟩
    match state.cache.entries[key]? with
    | some found =>
        (.ok found, { state with cache := { state.cache with hits := state.cache.hits + 1 } })
    | none =>
        let misses := state.cache.misses + 1
        match Bake.modelIn orders misses bakery.models bakery.atlases id placement state.missed with
        | (.error error, missed) =>
            (.error error, ⟨{ state.cache with misses := misses }, missed⟩)
        | (.ok model, missed) =>
            let fresh : Shared BakedModel := ⟨misses, model⟩
            (.ok fresh,
              ⟨⟨state.cache.entries.insert key fresh, state.cache.hits, misses⟩, missed⟩)

/-- Bakes everything that a load binds, which is listed in some order. -/
def bakeAllIn (bindings : BindingTable) (items : Table ResourceId ItemBinding) :
    Batch × List Warning :=
  Baker.bakeAll (bakery.bakeIn orders) bakery.atlases
    (sortBy Prod.fst (orders.arrange .bakedStates bindings.toList))
    (sortBy Prod.fst (orders.arrange .bakedItems items.toList))

theorem bakeIn_eq : bakery.bakeIn orders = bakery.bake := by
  funext id placement state
  simp only [bakeIn, Bake.modelIn_eq]
  rfl

theorem bakeAllIn_eq (bindings : BindingTable) (items : Table ResourceId ItemBinding) :
    bakery.bakeAllIn orders bindings items = Batch.bakeAll bakery bindings items := by
  have states := (Table.increasing_toList bindings).sortBy_eq (orders.perm .bakedStates _)
  have shown := (Table.increasing_toList items).sortBy_eq (orders.perm .bakedItems _)
  rw [bakeAllIn, bakeIn_eq, states, shown, bakeAll_through]

end Bakery

/-! ## Bakeries with the same chains -/

/-- A bakery bakes from the chains of its models and from nothing else of them. -/
theorem Bakery.bake_congr {models models' : ModelSet} (atlases : AtlasSet)
    (chains : ∀ id, models.chain id = models'.chain id) :
    (Bakery.mk models atlases).bake = (Bakery.mk models' atlases).bake := by
  funext id placement state
  simp only [bake, Bake.model, chains]

theorem Batch.bakeAll_congr {models models' : ModelSet} (atlases : AtlasSet)
    (chains : ∀ id, models.chain id = models'.chain id) (bindings : BindingTable)
    (items : Table ResourceId ItemBinding) :
    bakeAll ⟨models, atlases⟩ bindings items = bakeAll ⟨models', atlases⟩ bindings items := by
  rw [← Bakery.bakeAll_through, ← Bakery.bakeAll_through, Bakery.bake_congr atlases chains]

end PackModels
