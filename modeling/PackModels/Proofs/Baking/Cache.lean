import PackModels.Proofs.Baking.Assemble
import PackModels.Proofs.Baking.Bake
import PackModels.Proofs.Tags

/-!
Contract: baking through a cache gives what baking without one would give.

`Bakery.afresh` bakes every key anew. A cache is faithful when each of its
instances holds what a fresh bake of its key gives, and no two keys share an
instance; looking a bake up keeps this and forgets nothing. So whatever is
baked through a faithful cache is what its assembly builds from that cache and
from every later one, and it fails exactly where its assembly fails on fresh
bakes.
-/

namespace PackModels

/-- Where a cache has a bake, it is found. -/
def BakeState.find (state : BakeState) : Finder :=
  fun key => state.cache.entries[key]?

/-- The bakes of a state are all there in another one. -/
def BakeState.Grows (before after : BakeState) : Prop :=
  ∀ key model, before.find key = some model → after.find key = some model

theorem BakeState.Grows.refl (state : BakeState) : state.Grows state :=
  fun _ _ found => found

theorem BakeState.Grows.trans {first second third : BakeState} (left : first.Grows second)
    (right : second.Grows third) : first.Grows third :=
  fun key model found => right key model (left key model found)

namespace Bakery

/-- A bake of a key that is made without a cache. -/
def afresh (bakery : Bakery) : Finder :=
  fun key =>
    ((Bake.model bakery.models bakery.atlases key.id key.placement ∅).1.toOption).map
      (fun model => ⟨0, model⟩)

/-- Each instance of a cache holds what a fresh bake of its key gives, and is
the instance of no other key. -/
structure Faithful (bakery : Bakery) (state : BakeState) : Prop where
  fresh : ∀ key model, state.find key = some model → bakery.afresh key = some model.untagged
  tagged : Tagged Shared.tag state.find state.cache.misses

variable {bakery : Bakery}

theorem find_start (key : BakeKey) : BakeState.start.find key = none := by
  simp [BakeState.find, BakeState.start, BakeCache.empty]

theorem faithful_start : bakery.Faithful .start where
  fresh := by
    intro key model found
    rw [find_start] at found
    cases found
  tagged := Tagged.of_nothing find_start

/-- Looking for bakes keeps the instances that are there. -/
theorem Faithful.counted {state : BakeState} (faithful : bakery.Faithful state)
    {hits misses : Nat} (counted : state.cache.misses ≤ misses) {missed : Misses} :
    bakery.Faithful ⟨⟨state.cache.entries, hits, misses⟩, missed⟩ where
  fresh := faithful.fresh
  tagged := faithful.tagged.mono counted

theorem afresh_of_ok {key : BakeKey} {misses missed : Misses} {model : BakedModel}
    (baked : Bake.model bakery.models bakery.atlases key.id key.placement misses =
      (.ok model, missed)) : bakery.afresh key = some ⟨0, model⟩ := by
  have result := Bake.chain_result bakery.atlases key.id.render (bakery.models.chain key.id)
    key.placement ∅ misses
  unfold Bake.model at baked
  unfold afresh Bake.model
  rw [result, baked]
  rfl

theorem afresh_of_error {key : BakeKey} {misses missed : Misses} {error : BakeError}
    (baked : Bake.model bakery.models bakery.atlases key.id key.placement misses =
      (.error error, missed)) : bakery.afresh key = none := by
  have result := Bake.chain_result bakery.atlases key.id.render (bakery.models.chain key.id)
    key.placement ∅ misses
  unfold Bake.model at baked
  unfold afresh Bake.model
  rw [result, baked]
  rfl

/-- What baking with a cache gives for an assembly, from some state on. -/
structure Outcome {Value : Type} (bakery : Bakery) (assembly : Assembly Value)
    (before : BakeState) (outcome : Except BakeError Value × BakeState) : Prop where
  faithful : bakery.Faithful outcome.2
  grows : before.Grows outcome.2
  built : ∀ value, outcome.1 = .ok value → assembly.build outcome.2.find = some value
  failed : ∀ error, outcome.1 = .error error → assembly.build bakery.afresh = none

/-- What has been built stays built while the cache grows. -/
theorem build_of_grows {Value : Type} (assembly : Assembly Value) {before after : BakeState}
    (grows : before.Grows after) {value : Value}
    (built : assembly.build before.find = some value) :
    assembly.build after.find = some value := by
  have refines : Finder.Refines assembly.keys id before.find after.find :=
    fun key _ model found => grows key model found
  rw [assembly.refines refines value built, assembly.map_id]

/-- What is built from a faithful cache is built from fresh bakes, up to which
instances are shared. -/
theorem build_afresh {Value : Type} (assembly : Assembly Value) {state : BakeState}
    (faithful : bakery.Faithful state) {value : Value}
    (built : assembly.build state.find = some value) :
    assembly.build bakery.afresh = some (assembly.map Shared.untagged value) := by
  have refines : Finder.Refines assembly.keys Shared.untagged state.find bakery.afresh :=
    fun key _ model found => faithful.fresh key model found
  exact assembly.refines refines value built

/-! ## Outcomes from outcomes -/

section Outcomes

variable {Part Value : Type} {part : Assembly Part} {assembly : Assembly Value}
  {before between after : BakeState}

theorem Outcome.of_unchanged (faithful : bakery.Faithful before) {value : Value}
    (built : assembly.build before.find = some value) :
    Outcome bakery assembly before (.ok value, before) where
  faithful := faithful
  grows := .refl before
  built := by
    intro other same
    rw [built, Except.ok.inj same]
  failed := by
    intro error impossible
    cases impossible

theorem Outcome.of_ok {held : Part} {value : Value}
    (outcome : Outcome bakery part before (.ok held, after))
    (builds : part.build after.find = some held → assembly.build after.find = some value) :
    Outcome bakery assembly before (.ok value, after) where
  faithful := outcome.faithful
  grows := outcome.grows
  built := by
    intro other same
    rw [builds (outcome.built held rfl), Except.ok.inj same]
  failed := by
    intro error impossible
    cases impossible

theorem Outcome.of_error {error : BakeError}
    (outcome : Outcome bakery part before (.error error, after))
    (fails : part.build bakery.afresh = none → assembly.build bakery.afresh = none) :
    Outcome bakery assembly before (.error error, after) where
  faithful := outcome.faithful
  grows := outcome.grows
  built := by
    intro other impossible
    cases impossible
  failed := fun _ _ => fails (outcome.failed error rfl)

/-- What was baked is refused, and would be if it had been baked afresh. -/
theorem Outcome.refused {held : Part} (outcome : Outcome bakery part before (.ok held, after))
    (error : BakeError)
    (fails : part.build bakery.afresh = some (part.map Shared.untagged held) →
      assembly.build bakery.afresh = none) :
    Outcome bakery assembly before (.error error, after) where
  faithful := outcome.faithful
  grows := outcome.grows
  built := by
    intro other impossible
    cases impossible
  failed := fun _ _ => fails (build_afresh part outcome.faithful (outcome.built held rfl))

/-- Two bakes, one after the other, and what they come to together. -/
def bakeBoth {First Second : Type} (first : BakeState → Except BakeError First × BakeState)
    (second : BakeState → Except BakeError Second × BakeState)
    (join : First → Second → Value) (state : BakeState) : Except BakeError Value × BakeState :=
  match first state with
  | (.error error, after) => (.error error, after)
  | (.ok left, after) =>
      match second after with
      | (.error error, last) => (.error error, last)
      | (.ok right, last) => (.ok (join left right), last)

theorem bakeBoth_outcome {First Second : Type} {left : Assembly First}
    {right : Assembly Second} {first : BakeState → Except BakeError First × BakeState}
    {second : BakeState → Except BakeError Second × BakeState} {join : First → Second → Value}
    (builds : ∀ find, assembly.build find =
      match left.build find with
      | none => none
      | some head => (right.build find).map (join head))
    (firstOutcome : Outcome bakery left before (first before))
    (secondOutcome : ∀ state, bakery.Faithful state →
      Outcome bakery right state (second state)) :
    Outcome bakery assembly before (bakeBoth first second join before) := by
  unfold bakeBoth
  generalize first before = outcome at firstOutcome
  obtain ⟨result, between⟩ := outcome
  cases result with
  | error error =>
      refine firstOutcome.of_error fun fails => ?_
      rw [builds, fails]
  | ok head =>
      have rest := secondOutcome between firstOutcome.faithful
      dsimp only
      generalize second between = outcome at rest
      obtain ⟨result, after⟩ := outcome
      have grows := firstOutcome.grows.trans rest.grows
      cases result with
      | error error =>
          refine Outcome.of_error { rest with grows := grows } fun fails => ?_
          rw [builds, fails]
          cases left.build bakery.afresh with
          | none => rfl
          | some head => rfl
      | ok others =>
          refine Outcome.of_ok { rest with grows := grows } fun built => ?_
          have stays : left.build after.find = some head :=
            build_of_grows left rest.grows (firstOutcome.built head rfl)
          rw [builds, stays, built]
          rfl

end Outcomes

/-! ## One bake -/

/-- The assembly of one bake. -/
def single (key : BakeKey) : Assembly (Shared BakedModel) where
  keys := [key]
  build := fun find => find key
  map := fun change model => change model
  map_id := fun _ => rfl
  refines := fun refines model found => refines key (by simp) model found

section Insert

variable {state : BakeState} {key : BakeKey} {model : Shared BakedModel}
  {hits misses : Nat} {missed : Misses}

theorem find_insert_self :
    BakeState.find ⟨⟨state.cache.entries.insert key model, hits, misses⟩, missed⟩ key =
      some model :=
  Std.ExtTreeMap.getElem?_insert_self

theorem find_insert_of_ne {other : BakeKey} (apart : other ≠ key) :
    BakeState.find ⟨⟨state.cache.entries.insert key model, hits, misses⟩, missed⟩ other =
      state.find other :=
  Table.getElem?_insert_of_ne apart

/-- A new instance is named by the number of its miss. -/
theorem faithful_insert (faithful : bakery.Faithful state)
    (fresh : bakery.afresh key = some model.untagged) (new : state.cache.misses < model.tag) :
    bakery.Faithful ⟨⟨state.cache.entries.insert key model, hits, model.tag⟩, missed⟩ where
  fresh := by
    intro other held found
    by_cases same : other = key
    · rw [same, find_insert_self] at found
      rw [same, ← Option.some.inj found]
      exact fresh
    · rw [find_insert_of_ne same] at found
      exact faithful.fresh other held found
  tagged := by
    apply faithful.tagged.insert new
    · exact find_insert_self
    · intro other different
      exact find_insert_of_ne different

theorem grows_insert (unknown : state.find key = none) :
    state.Grows ⟨⟨state.cache.entries.insert key model, hits, misses⟩, missed⟩ := by
  intro other held found
  have different : other ≠ key := by
    intro same
    rw [same, unknown] at found
    cases found
  rw [find_insert_of_ne different]
  exact found

end Insert

theorem bake_of_found {state : BakeState} {key : BakeKey} {model : Shared BakedModel}
    (found : state.find key = some model) :
    bakery.bake key.id key.placement state =
      (.ok model, { state with cache := { state.cache with hits := state.cache.hits + 1 } }) := by
  have entry : state.cache.entries[(⟨key.id, key.placement⟩ : BakeKey)]? = some model := found
  unfold bake
  simp only [entry]

theorem bake_of_error {state : BakeState} {key : BakeKey} {error : BakeError} {missed : Misses}
    (unknown : state.find key = none)
    (baked : Bake.model bakery.models bakery.atlases key.id key.placement state.missed =
      (.error error, missed)) :
    bakery.bake key.id key.placement state =
      (.error error, ⟨{ state.cache with misses := state.cache.misses + 1 }, missed⟩) := by
  have entry : state.cache.entries[(⟨key.id, key.placement⟩ : BakeKey)]? = none := unknown
  unfold bake
  simp only [entry, baked]

theorem bake_of_ok {state : BakeState} {key : BakeKey} {model : BakedModel} {missed : Misses}
    (unknown : state.find key = none)
    (baked : Bake.model bakery.models bakery.atlases key.id key.placement state.missed =
      (.ok model, missed)) :
    bakery.bake key.id key.placement state =
      (.ok ⟨state.cache.misses + 1, model⟩,
        ⟨⟨state.cache.entries.insert key ⟨state.cache.misses + 1, model⟩, state.cache.hits,
            state.cache.misses + 1⟩, missed⟩) := by
  have entry : state.cache.entries[(⟨key.id, key.placement⟩ : BakeKey)]? = none := unknown
  unfold bake
  simp only [entry, baked]

/-- One bake through a faithful cache. -/
theorem bake_outcome {state : BakeState} (faithful : bakery.Faithful state) (key : BakeKey) :
    Outcome bakery (single key) state (bakery.bake key.id key.placement state) := by
  cases known : state.find key with
  | some model =>
      rw [bake_of_found known]
      exact {
        faithful := faithful.counted (Nat.le_refl _)
        grows := .refl state
        built := by
          intro value same
          rw [← Except.ok.inj same]
          exact known
        failed := by
          intro error impossible
          cases impossible }
  | none =>
      cases baked : Bake.model bakery.models bakery.atlases key.id key.placement state.missed with
      | mk result missed =>
          cases result with
          | error error =>
              rw [bake_of_error known baked]
              exact {
                faithful := faithful.counted (Nat.le_succ _)
                grows := .refl state
                built := by
                  intro value impossible
                  cases impossible
                failed := fun _ _ => afresh_of_error baked }
          | ok model =>
              rw [bake_of_ok known baked]
              exact {
                faithful := faithful_insert faithful (afresh_of_ok baked) (Nat.lt_succ_self _)
                grows := grows_insert known
                built := by
                  intro value same
                  rw [← Except.ok.inj same]
                  exact Std.ExtTreeMap.getElem?_insert_self
                failed := by
                  intro error impossible
                  cases impossible }

/-! ## Bindings -/

/-- The assembly of the entries of a choice. -/
def entriesAssembly (entries : List WeightedVariant) : Assembly (List WeightedModel) where
  keys := entries.map (fun entry => entry.variant.key)
  build := fun find => Binding.assembleEntries find entries
  map := fun change => List.map (WeightedModel.map change)
  map_id := by
    intro models
    rw [WeightedModel.map_id, List.map_id]
  refines := Binding.assembleEntries_refines entries

/-- The assembly of bindings that are drawn together. -/
def partsAssembly (parts : List Binding) : Assembly (List StateModel) where
  keys := (Binding.variantsOfParts parts).map Variant.key
  build := fun find => Binding.assembleParts find parts
  map := StateModel.mapParts
  map_id := StateModel.mapParts_id
  refines := Binding.assembleParts_refines parts

/-- The entries of a choice are baked one after the other. -/
theorem bakeEntries_cons (bakery : Bakery) (entry : WeightedVariant)
    (rest : List WeightedVariant) (state : BakeState) :
    bakery.bakeEntries (entry :: rest) state =
      bakeBoth (bakery.bake entry.variant.model entry.variant.placement)
        (bakery.bakeEntries rest) (fun model models => ⟨entry.weight, model⟩ :: models)
        state := by
  rw [bakeEntries, bakeBoth]
  rcases bakery.bake entry.variant.model entry.variant.placement state with
    ⟨error | model, after⟩
  · rfl
  · dsimp only
    rcases bakery.bakeEntries rest after with ⟨error | models, last⟩ <;> rfl

/-- Parts are baked one after the other. -/
theorem bakeParts_cons (bakery : Bakery) (name : String) (part : Binding)
    (rest : List Binding) (state : BakeState) :
    bakery.bakeParts name (part :: rest) state =
      bakeBoth (bakery.bakeBinding name part) (bakery.bakeParts name rest)
        (fun model models => model :: models) state := by
  rw [bakeParts, bakeBoth]
  rcases bakery.bakeBinding name part state with ⟨error | model, after⟩
  · rfl
  · dsimp only
    rcases bakery.bakeParts name rest after with ⟨error | models, last⟩ <;> rfl

theorem bakeEntries_outcome {state : BakeState} (faithful : bakery.Faithful state)
    (entries : List WeightedVariant) :
    Outcome bakery (entriesAssembly entries) state (bakery.bakeEntries entries state) := by
  induction entries generalizing state with
  | nil => exact .of_unchanged faithful rfl
  | cons entry rest inductionHypothesis =>
      rw [bakeEntries_cons]
      refine bakeBoth_outcome (fun find => ?_) (bake_outcome faithful entry.variant.key)
        (fun _ later => inductionHypothesis later)
      simp only [entriesAssembly, single, Binding.assembleEntries]
      cases find entry.variant.key with
      | none => rfl
      | some model => rfl

mutual

/-- A binding through a faithful cache. -/
theorem bakeBinding_outcome (name : String) : (binding : Binding) → {state : BakeState} →
    bakery.Faithful state →
    Outcome bakery binding.assembly state (bakery.bakeBinding name binding state)
  | .single variant, state => by
      intro faithful
      have baked := bake_outcome faithful variant.key
      rw [bakeBinding]
      change Outcome bakery _ state (bakery.bake variant.model variant.placement state) at baked
      generalize bakery.bake variant.model variant.placement state = outcome at baked
      obtain ⟨result, after⟩ := outcome
      cases result with
      | error error =>
          refine baked.of_error fun fails => ?_
          change bakery.afresh variant.key = none at fails
          simp only [Binding.assembly, Binding.assemble, fails, Option.map_none]
      | ok model =>
          refine baked.of_ok fun built => ?_
          change after.find variant.key = some model at built
          simp only [Binding.assembly, Binding.assemble, built, Option.map_some]
  | .weighted entries, state => by
      intro faithful
      have baked := bakeEntries_outcome faithful entries
      rw [bakeBinding]
      generalize bakery.bakeEntries entries state = outcome at baked
      obtain ⟨result, after⟩ := outcome
      cases result with
      | error error =>
          refine baked.of_error fun fails => ?_
          change Binding.assembleEntries bakery.afresh entries = none at fails
          simp only [Binding.assembly, Binding.assemble, fails, Option.bind_none]
      | ok models =>
          dsimp only
          cases chosen : StateModel.ofWeighted? models with
          | some choice =>
              refine baked.of_ok fun built => ?_
              change Binding.assembleEntries after.find entries = some models at built
              simp only [Binding.assembly, Binding.assemble, built, Option.bind_some, chosen]
          | none =>
              -- Only the weights decide this, and they are those of the fresh bakes.
              refine baked.refused _ fun built => ?_
              change Binding.assembleEntries bakery.afresh entries =
                some (models.map (WeightedModel.map Shared.untagged)) at built
              simp only [Binding.assembly, Binding.assemble, built, Option.bind_some,
                StateModel.ofWeighted?_map, chosen, Option.map_none]
  | .composite parts, state => by
      intro faithful
      have baked := bakeParts_outcome name parts faithful
      rw [bakeBinding]
      generalize bakery.bakeParts name parts state = outcome at baked
      obtain ⟨result, after⟩ := outcome
      cases result with
      | error error =>
          refine baked.of_error fun fails => ?_
          change Binding.assembleParts bakery.afresh parts = none at fails
          simp only [Binding.assembly, Binding.assemble, fails, Option.map_none]
      | ok models =>
          refine baked.of_ok fun built => ?_
          change Binding.assembleParts after.find parts = some models at built
          simp only [Binding.assembly, Binding.assemble, built, Option.map_some]

theorem bakeParts_outcome (name : String) : (parts : List Binding) → {state : BakeState} →
    bakery.Faithful state →
    Outcome bakery (partsAssembly parts) state (bakery.bakeParts name parts state)
  | [], state => by
      intro faithful
      rw [bakeParts]
      refine .of_unchanged faithful ?_
      simp only [partsAssembly, Binding.assembleParts]
  | part :: rest, state => by
      intro faithful
      rw [bakeParts_cons]
      refine bakeBoth_outcome (fun find => ?_) (bakeBinding_outcome name part faithful)
        (fun _ later => bakeParts_outcome name rest later)
      simp only [partsAssembly, Binding.assembly, Binding.assembleParts]
      cases Binding.assemble find part with
      | none => rfl
      | some model => rfl

end

/-- An item through a faithful cache. -/
theorem bakeItem_outcome {state : BakeState} (faithful : bakery.Faithful state)
    (item : ItemBinding) :
    Outcome bakery item.assembly state (bakery.bakeItem item state) := by
  cases item with
  | empty => exact .of_unchanged faithful rfl
  | model id =>
      have baked := bake_outcome faithful ⟨id, Placement.identity⟩
      unfold bakeItem
      change Outcome bakery _ state (bakery.bake id Placement.identity state) at baked
      dsimp only
      generalize bakery.bake id Placement.identity state = outcome at baked
      obtain ⟨result, after⟩ := outcome
      cases result with
      | error error =>
          refine baked.of_error fun fails => ?_
          change bakery.afresh ⟨id, Placement.identity⟩ = none at fails
          simp only [ItemBinding.assembly, ItemBinding.assemble, fails, Option.map_none]
      | ok model =>
          refine baked.of_ok fun built => ?_
          change after.find ⟨id, Placement.identity⟩ = some model at built
          simp only [ItemBinding.assembly, ItemBinding.assemble, built, Option.map_some]

end Bakery

end PackModels
