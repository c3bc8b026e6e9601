import PackModels.Proofs.Baking.Batch
import PackModels.Proofs.Baking.Calls

/-!
Contract: which bakes a batch attempts, and what it reports as missing.

A binding is baked from left to right up to its first failure, so the bakes it
attempts are the first ones of its keys, and all of them where nothing fails.
`attempts` lists them from fresh bakes alone. Baking a batch leaves the state
that these attempts leave one after another; therefore its missing textures
are what the attempted models lack, no matter what the cache held, how a model
was placed or how often it was tried.
-/

namespace PackModels

/-! ## The attempts of a binding -/

namespace Binding

variable (find : Finder)

/-- The bakes that a choice attempts: up to the first one that fails. -/
def attemptsOfEntries : List WeightedVariant → List BakeKey
  | [] => []
  | entry :: rest =>
      entry.variant.key :: if (find entry.variant.key).isSome then attemptsOfEntries rest else []

mutual

/-- The bakes that a binding attempts, from left to right. -/
def attempts : Binding → List BakeKey
  | .single variant => [variant.key]
  | .weighted entries => attemptsOfEntries find entries
  | .composite parts => attemptsOfParts parts

/-- The bakes that parts attempt: those of each part while all parts before it
come to something. -/
def attemptsOfParts : List Binding → List BakeKey
  | [] => []
  | part :: rest =>
      attempts part ++ if (assemble find part).isSome then attemptsOfParts rest else []

end

variable {find}

theorem attemptsOfEntries_eq {entries : List WeightedVariant}
    (bakes : (assembleEntries find entries).isSome = true) :
    attemptsOfEntries find entries = entries.map (fun entry => entry.variant.key) := by
  induction entries with
  | nil => rfl
  | cons entry rest inductionHypothesis =>
      rw [assembleEntries] at bakes
      cases found : find entry.variant.key with
      | none =>
          rw [found] at bakes
          cases bakes
      | some model =>
          rw [found, Option.isSome_map] at bakes
          rw [attemptsOfEntries, found, Option.isSome_some, if_pos rfl,
            inductionHypothesis bakes, List.map_cons]

theorem attemptsOfEntries_initial (entries : List WeightedVariant) :
    attemptsOfEntries find entries <+: entries.map (fun entry => entry.variant.key) := by
  induction entries with
  | nil => exact List.prefix_rfl
  | cons entry rest inductionHypothesis =>
      rw [attemptsOfEntries, List.map_cons, List.prefix_cons_inj]
      split
      · exact inductionHypothesis
      · exact List.nil_prefix

mutual

/-- Where a binding can be baked, all of its bakes are attempted. -/
theorem attempts_eq_keys : (binding : Binding) →
    (bakes : (assemble find binding).isSome = true) → binding.attempts find = binding.keys
  | .single variant => by
      intro _
      rw [attempts, keys, variants, List.map_singleton]
  | .weighted entries => by
      intro bakes
      rw [assemble] at bakes
      obtain ⟨model, chosen⟩ := Option.isSome_iff_exists.mp bakes
      obtain ⟨models, found, _⟩ := Option.bind_eq_some_iff.mp chosen
      have all : (assembleEntries find entries).isSome = true := by rw [found]; rfl
      rw [attempts, attemptsOfEntries_eq all, keys, variants, List.map_map]
      rfl
  | .composite parts => by
      intro bakes
      rw [assemble, Option.isSome_map] at bakes
      rw [attempts, attemptsOfParts_eq parts bakes, keys, variants]

theorem attemptsOfParts_eq : (parts : List Binding) →
    (bakes : (assembleParts find parts).isSome = true) →
    attemptsOfParts find parts = (variantsOfParts parts).map Variant.key
  | [] => by
      intro _
      rw [attemptsOfParts, variantsOfParts, List.map_nil]
  | part :: rest => by
      intro bakes
      rw [assembleParts] at bakes
      cases first : assemble find part with
      | none =>
          rw [first] at bakes
          cases bakes
      | some model =>
          rw [first, Option.isSome_map] at bakes
          have own : (assemble find part).isSome = true := by rw [first]; rfl
          rw [attemptsOfParts, first, Option.isSome_some, if_pos rfl,
            attempts_eq_keys part own, attemptsOfParts_eq rest bakes, variantsOfParts,
            List.map_append, keys]

end

mutual

/-- The bakes that are attempted come first among those of a binding. -/
theorem attempts_initial : (binding : Binding) → binding.attempts find <+: binding.keys
  | .single variant => by
      have all : (single variant).attempts find = (single variant).keys := by
        rw [attempts, keys, variants, List.map_singleton]
      exact all ▸ List.prefix_rfl
  | .weighted entries => by
      have first : attemptsOfEntries find entries <+: _ := attemptsOfEntries_initial entries
      rw [attempts, keys, variants, List.map_map]
      exact first
  | .composite parts => by
      rw [attempts, keys, variants]
      exact attemptsOfParts_initial parts

theorem attemptsOfParts_initial : (parts : List Binding) →
    attemptsOfParts find parts <+: (variantsOfParts parts).map Variant.key
  | [] => by
      rw [attemptsOfParts]
      exact List.nil_prefix
  | part :: rest => by
      rw [attemptsOfParts, variantsOfParts, List.map_append]
      split
      · rename_i bakes
        rw [attempts_eq_keys part bakes, keys, List.prefix_append_right_inj]
        exact attemptsOfParts_initial rest
      · rw [List.append_nil]
        exact (attempts_initial part).trans (List.prefix_append _ _)

end

end Binding

/-! ## The state after a binding -/

namespace Bakery

variable {bakery : Bakery}

theorem bakeEach_append (keys others : List BakeKey) (state : BakeState) :
    (bakery.bakeEach (keys ++ others) state).2 =
      (bakery.bakeEach others (bakery.bakeEach keys state).2).2 := by
  induction keys generalizing state with
  | nil => rfl
  | cons key rest inductionHypothesis =>
      exact inductionHypothesis (bakery.bake key.id key.placement state).2

theorem Outcome.isSome_of_ok {Value : Type} {assembly : Assembly Value}
    {before after : BakeState} {value : Value}
    (outcome : Outcome bakery assembly before (.ok value, after)) :
    (assembly.build bakery.afresh).isSome = true := by
  rw [build_afresh assembly outcome.faithful (outcome.built value rfl)]
  rfl

theorem Outcome.isSome_of_error {Value : Type} {assembly : Assembly Value}
    {before after : BakeState} {error : BakeError}
    (outcome : Outcome bakery assembly before (.error error, after)) :
    (assembly.build bakery.afresh).isSome = false := by
  rw [outcome.failed error rfl]
  rfl

/-- Of two bakes the second one is attempted where the first one succeeds. -/
theorem bakeBoth_state {First Second Value : Type} {left : Assembly First}
    {first : BakeState → Except BakeError First × BakeState}
    {second : BakeState → Except BakeError Second × BakeState} {join : First → Second → Value}
    {before : BakeState} {keys others : List BakeKey}
    (firstOutcome : Outcome bakery left before (first before))
    (firstState : (first before).2 = (bakery.bakeEach keys before).2)
    (secondState : ∀ state, bakery.Faithful state →
      (second state).2 = (bakery.bakeEach others state).2) :
    (bakeBoth first second join before).2 =
      (bakery.bakeEach
        (keys ++ if (left.build bakery.afresh).isSome then others else []) before).2 := by
  rw [bakeEach_append, ← firstState]
  unfold bakeBoth
  generalize first before = outcome at firstOutcome
  obtain ⟨result, after⟩ := outcome
  cases result with
  | error error =>
      rw [firstOutcome.isSome_of_error]
      rfl
  | ok value =>
      rw [firstOutcome.isSome_of_ok, if_pos rfl, ← secondState after firstOutcome.faithful]
      dsimp only
      generalize second after = outcome
      obtain ⟨result, last⟩ := outcome
      cases result with
      | error error => rfl
      | ok value => rfl

theorem bakeEntries_state {state : BakeState} (faithful : bakery.Faithful state)
    (entries : List WeightedVariant) :
    (bakery.bakeEntries entries state).2 =
      (bakery.bakeEach (Binding.attemptsOfEntries bakery.afresh entries) state).2 := by
  induction entries generalizing state with
  | nil => rfl
  | cons entry rest inductionHypothesis =>
      rw [bakeEntries_cons]
      have own : (bakery.bake entry.variant.model entry.variant.placement state).2 =
          (bakery.bakeEach [entry.variant.key] state).2 :=
        rfl
      exact bakeBoth_state (bake_outcome faithful entry.variant.key) own
        (fun _ later => inductionHypothesis later)

mutual

/-- A binding leaves the state that its attempts leave. -/
theorem bakeBinding_state (name : String) : (binding : Binding) → {state : BakeState} →
    bakery.Faithful state →
    (bakery.bakeBinding name binding state).2 =
      (bakery.bakeEach (binding.attempts bakery.afresh) state).2
  | .single variant, state => by
      intro _
      rw [bakeBinding, Binding.attempts]
      change _ = (bakery.bake variant.model variant.placement state).2
      generalize bakery.bake variant.model variant.placement state = outcome
      obtain ⟨result, after⟩ := outcome
      cases result with
      | error error => rfl
      | ok model => rfl
  | .weighted entries, state => by
      intro faithful
      rw [bakeBinding, Binding.attempts, ← bakeEntries_state faithful entries]
      generalize bakery.bakeEntries entries state = outcome
      obtain ⟨result, after⟩ := outcome
      cases result with
      | error error => rfl
      | ok models =>
          dsimp only
          cases StateModel.ofWeighted? models with
          | none => rfl
          | some choice => rfl
  | .composite parts, state => by
      intro faithful
      rw [bakeBinding, Binding.attempts, ← bakeParts_state name parts faithful]
      generalize bakery.bakeParts name parts state = outcome
      obtain ⟨result, after⟩ := outcome
      cases result with
      | error error => rfl
      | ok models => rfl

theorem bakeParts_state (name : String) : (parts : List Binding) → {state : BakeState} →
    bakery.Faithful state →
    (bakery.bakeParts name parts state).2 =
      (bakery.bakeEach (Binding.attemptsOfParts bakery.afresh parts) state).2
  | [], state => by
      intro _
      rw [bakeParts, Binding.attemptsOfParts, bakeEach]
  | part :: rest, state => by
      intro faithful
      rw [bakeParts_cons, Binding.attemptsOfParts]
      exact bakeBoth_state (bakeBinding_outcome name part faithful)
        (bakeBinding_state name part faithful)
        (fun _ later => bakeParts_state name rest later)

end

/-- An item leaves the state that its only bake leaves. -/
theorem bakeItem_state (item : ItemBinding) (state : BakeState) :
    (bakery.bakeItem item state).2 = (bakery.bakeEach item.keys state).2 := by
  cases item with
  | empty => rfl
  | model id =>
      unfold bakeItem
      change _ = (bakery.bake id Placement.identity state).2
      dsimp only
      generalize bakery.bake id Placement.identity state = outcome
      obtain ⟨result, after⟩ := outcome
      cases result with
      | error error => rfl
      | ok model => rfl

end Bakery

/-! ## The attempts of a batch -/

namespace Batch

open Bakery

variable {bakery : Bakery}

/-- The bakes that a batch attempts: the missing model, the bindings of states
and the items, each table in its order. -/
def attempts (bakery : Bakery) (bindings : BindingTable)
    (items : Table ResourceId ItemBinding) : List BakeKey :=
  missingKey ::
    (bindings.toList.flatMap (fun entry => entry.2.attempts bakery.afresh)
      ++ items.toList.flatMap (fun entry => entry.2.keys))

/-- Where the missing model cannot be baked, the missing sprite is looked up,
which is no miss. -/
theorem bakeMissing_state (bakery : Bakery) :
    (bakeMissing bakery).2.1 = (bakery.bakeEach [missingKey] .start).2 := by
  change _ = (bakery.bake ModelDef.missingId Placement.identity .start).2
  unfold bakeMissing
  generalize bakery.bake ModelDef.missingId Placement.identity .start = outcome
  obtain ⟨result, state⟩ := outcome
  cases result with
  | ok model => rfl
  | error error =>
      have unchanged : (bakery.atlases.lookUp ModelDef.missingId.render Material.missing
          state.missed).2 = state.missed := by
        unfold AtlasSet.lookUp
        split
        · rfl
        · rw [if_pos (show Material.missing.texture = Material.missingTexture from rfl)]
      dsimp only
      rw [unchanged]

section Table

variable {Key Source Value : Type} [Ord Key] [Std.TransOrd Key]
  {bake : Key → Source → BakeState → Except BakeError Value × BakeState}
  {complaint : Key → BakeError → Warning}

theorem bakeOne_state (progress : Progress Key Value) (entry : Key × Source) :
    (bakeOne bake complaint progress entry).state =
      (bake entry.1 entry.2 progress.state).2 := by
  unfold bakeOne
  generalize bake entry.1 entry.2 progress.state = outcome
  obtain ⟨result, state⟩ := outcome
  cases result with
  | ok value => rfl
  | error error => rfl

/-- A table of bindings leaves the state that all their attempts leave. -/
theorem foldl_bakeOne_state {attempted : Source → List BakeKey}
    (bakes : ∀ key source state, bakery.Faithful state →
      (bake key source state).2 = (bakery.bakeEach (attempted source) state).2)
    (entries : List (Key × Source)) {progress : Progress Key Value}
    (faithful : bakery.Faithful progress.state) :
    (entries.foldl (bakeOne bake complaint) progress).state =
      (bakery.bakeEach (entries.flatMap (fun entry => attempted entry.2)) progress.state).2 := by
  induction entries generalizing progress with
  | nil => rfl
  | cons entry rest inductionHypothesis =>
      have own : (bakeOne bake complaint progress entry).state =
          (bakery.bakeEach (attempted entry.2) progress.state).2 := by
        rw [bakeOne_state, bakes entry.1 entry.2 progress.state faithful]
      have later : bakery.Faithful (bakeOne bake complaint progress entry).state := by
        rw [own]
        exact bakeEach_faithful faithful (attempted entry.2)
      rw [List.foldl_cons, inductionHypothesis later, List.flatMap_cons, bakeEach_append, own]

end Table

theorem bakeAll_missed (bakery : Bakery) (bindings : BindingTable)
    (items : Table ResourceId ItemBinding) :
    (bakeAll bakery bindings items).1.missingTextures =
      (bakery.bakeEach (attempts bakery bindings items) .start).2.missed := by
  have faithful := (bakeMissing_faithful bakery).1
  let after := bindings.toList.foldl (bakeState bakery) ⟨(bakeMissing bakery).2.1, ∅, 0, []⟩
  have states : after.state = _ :=
    foldl_bakeOne_state
      (fun id binding _ later => bakeBinding_state id.render binding later)
      bindings.toList faithful
  have faithfulAfter : bakery.Faithful after.state := by
    rw [states]
    exact bakeEach_faithful faithful _
  have shown : (items.toList.foldl (Batch.bakeItem bakery)
      ⟨after.state, ∅, after.failed, []⟩).state = _ :=
    foldl_bakeOne_state (fun _ item state _ => bakeItem_state item state)
      items.toList faithfulAfter
  have missed : (bakeAll bakery bindings items).1.missingTextures =
      (items.toList.foldl (Batch.bakeItem bakery)
        ⟨after.state, ∅, after.failed, []⟩).state.missed :=
    rfl
  have tried : attempts bakery bindings items = [missingKey]
      ++ (bindings.toList.flatMap (fun entry => entry.2.attempts bakery.afresh)
        ++ items.toList.flatMap (fun entry => entry.2.keys)) :=
    rfl
  rw [missed, shown, states, tried, bakeEach_append, bakeEach_append, bakeMissing_state]

/-- A model that was tried before adds nothing, however it is placed. -/
theorem missed_bakeEach_again {keys : List BakeKey} {key : BakeKey}
    (tried : ∃ earlier ∈ keys, earlier.id = key.id) :
    (bakery.bakeEach (keys ++ [key]) .start).2.missed =
      (bakery.bakeEach keys .start).2.missed := by
  obtain ⟨earlier, member, same⟩ := tried
  have once := (bakeEach_adds (informed_start bakery) keys).1
  have twice := (bakeEach_adds (informed_start bakery) (keys ++ [key])).1
  refine twice.unique Misses.substantial_empty (once.congr fun model text => ?_)
  constructor
  · rintro ⟨found, before, lacks⟩
    exact ⟨found, List.mem_append_left _ before, lacks⟩
  · rintro ⟨found, listed, lacks⟩
    rcases List.mem_append.mp listed with before | last
    · exact ⟨found, before, lacks⟩
    · rw [List.mem_singleton.mp last, ← same] at lacks
      exact ⟨earlier, member, lacks⟩

/-- A batch reports a text under the name of a model exactly where it attempts
a bake of a model of that name that lacks the text, and lists no model without
a text. A binding attempts its bakes from left to right, all of them where
nothing fails. Trying a model again adds nothing, however it is placed and
whether it was found, made or failed. -/
theorem missingTextures_iff (bakery : Bakery) (bindings : BindingTable)
    (items : Table ResourceId ItemBinding) :
    let missing := (bakeAll bakery bindings items).1.missingTextures
    (∀ model text, missing.Reports model text ↔
      ∃ key ∈ attempts bakery bindings items,
        key.id.render = model ∧ bakery.Lacks key.id text) ∧
    missing.Substantial ∧
    (∀ binding : Binding, binding.attempts bakery.afresh <+: binding.keys ∧
      ((Binding.assemble bakery.afresh binding).isSome = true →
        binding.attempts bakery.afresh = binding.keys)) ∧
    (∀ keys (key : BakeKey), (∃ earlier ∈ keys, earlier.id = key.id) →
      (bakery.bakeEach (keys ++ [key]) .start).2.missed =
        (bakery.bakeEach keys .start).2.missed) := by
  intro missing
  have adds := (bakeEach_adds (informed_start bakery)
    (attempts bakery bindings items)).1
  rw [← bakeAll_missed] at adds
  refine ⟨?reports, adds.substantial Misses.substantial_empty,
    fun binding => ⟨Binding.attempts_initial binding, Binding.attempts_eq_keys binding⟩,
    fun _ _ tried => missed_bakeEach_again tried⟩
  case reports =>
    intro model text
    rw [adds.reports]
    constructor
    · rintro (before | lacks)
      · exact absurd before (Misses.not_reports_empty model text)
      · exact lacks
    · exact .inr

end Batch

end PackModels
