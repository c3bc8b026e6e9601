import PackModels.Proofs.Baking.Calls
import PackModels.Proofs.Baking.Shares

/-!
Contract: a baked binding comes to one model for each of its leaves.

However deep its parts are nested, a binding is drawn leaf by leaf, from left to
right. A leaf is one variant or a choice, and what it offers are the variants that
can be drawn for it: a choice offers those of a positive weight. Baking succeeds
only where every leaf offers something, whatever the cache held before, and then
each model that is drawn for a leaf is the one that was baked for a variant that
the leaf offers.

Owns: `Leaf`, `Binding.leaves`, and `Leaf.Comes`, what a leaf is baked to.

Does not own: which numbers are drawn.
-/

namespace PackModels

open StateModel

/-! ## Leaves -/

/-- A binding that has no parts: one variant, or a choice of several. -/
inductive Leaf where
  | single (variant : Variant)
  | weighted (entries : List WeightedVariant)

namespace Leaf

/-- The variants that can be drawn for a leaf. -/
def offers : Leaf → List Variant
  | single variant => [variant]
  | weighted entries =>
      (entries.filter (fun entry => 0 < entry.weight)).map WeightedVariant.variant

/-- How much the entries of a choice weigh together. -/
def load : Leaf → Nat
  | single _ => 0
  | weighted entries => weightSum (entries.map WeightedVariant.weight)

/-- Whether a number is drawn for a leaf: only where it offers several variants. -/
def isDrawn (leaf : Leaf) : Bool :=
  1 < leaf.offers.length

/-- Whether a model is that of a variant that a leaf offers. -/
def Serves (find : Finder) (leaf : Leaf) (model : Shared BakedModel) : Prop :=
  ∃ variant ∈ leaf.offers, find variant.key = some model

/-- What offers several variants weighs something. -/
theorem load_pos {leaf : Leaf} (drawn : leaf.isDrawn = true) : 0 < leaf.load := by
  cases leaf with
  | single variant => simp [isDrawn, offers] at drawn
  | weighted entries =>
      have several : 1 < (entries.filter (fun entry => 0 < entry.weight)).length := by
        simpa [isDrawn, offers] using drawn
      obtain ⟨entry, member⟩ := List.exists_mem_of_length_pos (Nat.lt_of_succ_lt several)
      obtain ⟨listed, isPositive⟩ := List.mem_filter.mp member
      have positive : 0 < entry.weight.toNat :=
        UInt32.lt_iff_toNat_lt.mp (of_decide_eq_true isPositive)
      have part : entry.weight.toNat ≤ weightSum (entries.map WeightedVariant.weight) :=
        le_weightSum (List.mem_map_of_mem listed)
      exact Nat.lt_of_lt_of_le positive part

end Leaf

namespace Binding

mutual

/-- The leaves of a binding, from left to right. -/
def leaves : Binding → List Leaf
  | .single variant => [.single variant]
  | .weighted entries => [.weighted entries]
  | .composite parts => leavesOfParts parts

def leavesOfParts : List Binding → List Leaf
  | [] => []
  | part :: rest => part.leaves ++ leavesOfParts rest

end

end Binding

/-! ## Bakes through any cache -/

namespace Bakery

variable {bakery : Bakery} {state after : BakeState}

theorem bake_built (key : BakeKey) {model : Shared BakedModel}
    (baked : bakery.bake key.id key.placement state = (.ok model, after)) :
    state.Grows after ∧ after.find key = some model := by
  have called := bake_called bakery key state
  rw [baked] at called
  cases called with
  | found known => exact ⟨.refl state, known⟩
  | made unknown _ => exact ⟨grows_insert unknown, find_insert_self⟩

/-- Where two bakes come to something together, each of them does. -/
theorem exists_of_bakeBoth {First Second Value : Type}
    {first : BakeState → Except BakeError First × BakeState}
    {second : BakeState → Except BakeError Second × BakeState} {join : First → Second → Value}
    {value : Value} (baked : bakeBoth first second join state = (.ok value, after)) :
    ∃ left right between, first state = (.ok left, between) ∧
      second between = (.ok right, after) ∧ join left right = value := by
  unfold bakeBoth at baked
  generalize first state = outcome at baked ⊢
  obtain ⟨result, between⟩ := outcome
  cases result with
  | error error => cases baked
  | ok left =>
      dsimp only at baked
      generalize secondOutcome : second between = outcome at baked
      obtain ⟨result, last⟩ := outcome
      cases result with
      | error error => cases baked
      | ok right =>
          obtain ⟨same, rfl⟩ := Prod.mk.inj baked
          exact ⟨left, right, between, rfl, secondOutcome, Except.ok.inj same⟩

theorem bakeEntries_built {entries : List WeightedVariant} {models : List WeightedModel}
    (baked : bakery.bakeEntries entries state = (.ok models, after)) :
    state.Grows after ∧ Binding.assembleEntries after.find entries = some models := by
  induction entries generalizing state models with
  | nil =>
      obtain ⟨same, rfl⟩ := Prod.mk.inj baked
      exact ⟨.refl state, congrArg some (Except.ok.inj same)⟩
  | cons entry rest inductionHypothesis =>
      rw [bakeEntries_cons] at baked
      obtain ⟨model, others, between, first, second, rfl⟩ := exists_of_bakeBoth baked
      obtain ⟨grows, found⟩ := bake_built entry.variant.key first
      obtain ⟨growsOn, assembled⟩ := inductionHypothesis second
      refine ⟨grows.trans growsOn, ?_⟩
      exact Binding.assembleEntries_cons_eq_some_iff.mpr
        ⟨_, _, growsOn _ _ found, assembled, rfl⟩

mutual

/-- What a binding is baked to is assembled from the bakes that the cache holds
then, whatever it held before. -/
theorem bakeBinding_built (name : String) : (binding : Binding) → {state after : BakeState} →
    {model : StateModel} → bakery.bakeBinding name binding state = (.ok model, after) →
    state.Grows after ∧ Binding.assemble after.find binding = some model
  | .single variant, state, after, model => by
      intro baked
      rw [bakeBinding] at baked
      generalize single : bakery.bake variant.model variant.placement state = outcome at baked
      obtain ⟨result, last⟩ := outcome
      cases result with
      | error error => cases baked
      | ok held =>
          obtain ⟨same, rfl⟩ := Prod.mk.inj baked
          obtain ⟨grows, found⟩ := bake_built variant.key single
          rw [Binding.assemble, found, Option.map_some, Except.ok.inj same]
          exact ⟨grows, rfl⟩
  | .weighted entries, state, after, model => by
      intro baked
      rw [bakeBinding] at baked
      generalize all : bakery.bakeEntries entries state = outcome at baked
      obtain ⟨result, last⟩ := outcome
      cases result with
      | error error => cases baked
      | ok models =>
          dsimp only at baked
          generalize chosen : ofWeighted? models = choice at baked
          cases choice with
          | none => cases baked
          | some choice =>
              obtain ⟨same, rfl⟩ := Prod.mk.inj baked
              obtain ⟨grows, assembled⟩ := bakeEntries_built all
              rw [Binding.assemble, assembled, Option.bind_some, chosen, Except.ok.inj same]
              exact ⟨grows, rfl⟩
  | .composite parts, state, after, model => by
      intro baked
      rw [bakeBinding] at baked
      generalize all : bakery.bakeParts name parts state = outcome at baked
      obtain ⟨result, last⟩ := outcome
      cases result with
      | error error => cases baked
      | ok models =>
          obtain ⟨same, rfl⟩ := Prod.mk.inj baked
          obtain ⟨grows, assembled⟩ := bakeParts_built name parts all
          rw [Binding.assemble, assembled, Option.map_some, Except.ok.inj same]
          exact ⟨grows, rfl⟩

theorem bakeParts_built (name : String) : (parts : List Binding) → {state after : BakeState} →
    {models : List StateModel} → bakery.bakeParts name parts state = (.ok models, after) →
    state.Grows after ∧ Binding.assembleParts after.find parts = some models
  | [], state, after, models => by
      intro baked
      rw [bakeParts] at baked
      obtain ⟨same, rfl⟩ := Prod.mk.inj baked
      rw [Binding.assembleParts, Except.ok.inj same]
      exact ⟨.refl state, rfl⟩
  | part :: rest, state, after, models => by
      intro baked
      rw [bakeParts_cons] at baked
      obtain ⟨model, others, between, first, second, rfl⟩ := exists_of_bakeBoth baked
      obtain ⟨grows, assembled⟩ := bakeBinding_built name part first
      obtain ⟨growsOn, assembledRest⟩ := bakeParts_built name rest second
      have stays : Binding.assemble after.find part = some model :=
        build_of_grows part.assembly growsOn assembled
      exact ⟨grows.trans growsOn,
        Binding.assembleParts_cons_eq_some_iff.mpr ⟨_, _, stays, assembledRest, rfl⟩⟩

end

end Bakery

/-! ## What a leaf comes to -/

namespace Leaf

variable {find : Finder}

/-- What a leaf is baked to: the model of what it offers, where no number is drawn,
and else a choice between models of what it offers, with the weights of the leaf. -/
inductive Comes (find : Finder) (leaf : Leaf) : StateModel → Prop
  | alone {model : Shared BakedModel} (undrawn : leaf.isDrawn = false)
      (serves : leaf.Serves find model) : Comes find leaf (.single model)
  | choice {kept : List WeightedModel} (drawn : leaf.isDrawn = true)
      (serves : ∀ entry ∈ kept, leaf.Serves find entry.model)
      (weighs : weightSum (kept.map WeightedModel.weight) = leaf.load) :
      Comes find leaf (.weighted kept (totalWeight kept))

theorem comes_single {variant : Variant} {model : Shared BakedModel}
    (found : find variant.key = some model) : Comes find (.single variant) (.single model) :=
  .alone (by simp [isDrawn, offers]) ⟨variant, by simp [offers], found⟩

/-- The entries of a choice stand beside their models. -/
theorem forall₂_of_assembleEntries {entries : List WeightedVariant} {models : List WeightedModel}
    (assembled : Binding.assembleEntries find entries = some models) :
    List.Forall₂ (fun (entry : WeightedVariant) (model : WeightedModel) =>
      find entry.variant.key = some model.model ∧ model.weight = entry.weight) entries models := by
  induction entries generalizing models with
  | nil =>
      obtain rfl : [] = models := Option.some.inj assembled
      exact .nil
  | cons entry rest inductionHypothesis =>
      obtain ⟨model, others, found, assembledRest, rfl⟩ :=
        Binding.assembleEntries_cons_eq_some_iff.mp assembled
      exact .cons ⟨found, rfl⟩ (inductionHypothesis assembledRest)

/-- A choice that is not empty comes to what its positive weights leave. -/
theorem comes_weighted {entries : List WeightedVariant} {models : List WeightedModel}
    {choice : StateModel} (assembled : Binding.assembleEntries find entries = some models)
    (chosen : ofWeighted? models = some choice) : Comes find (.weighted entries) choice := by
  have each := forall₂_of_assembleEntries assembled
  have sameWeights : models.map WeightedModel.weight = entries.map WeightedVariant.weight := by
    clear chosen assembled
    induction each with
    | nil => rfl
    | cons first _ inductionHypothesis => simp [first.2, inductionHypothesis]
  have keptEach := List.rel_filter (p := fun entry : WeightedVariant => decide (0 < entry.weight))
    (q := fun model : WeightedModel => decide (0 < model.weight))
    (fun entry model both => by simp [both.2]) each
  have serves : ∀ model ∈ models.filter (fun model => 0 < model.weight),
      (Leaf.weighted entries).Serves find model.model := by
    intro model member
    obtain ⟨entry, kept, found, _⟩ := (exists_of_forall₂ keptEach).2 model member
    exact ⟨entry.variant, List.mem_map_of_mem kept, found⟩
  have counted : (Leaf.weighted entries).offers.length =
      (models.filter (fun model => 0 < model.weight)).length := by
    simpa [offers] using keptEach.length_eq
  have weighs : weightSum ((models.filter (fun model => 0 < model.weight)).map
      WeightedModel.weight) = (Leaf.weighted entries).load := by
    rw [weightSum_kept, sameWeights, load]
  unfold ofWeighted? at chosen
  generalize models.filter (fun model => 0 < model.weight) = kept at *
  match kept, chosen with
  | [only], chosen =>
      rw [← Option.some.inj chosen]
      exact .alone (by simp [isDrawn, counted]) (serves only List.mem_cons_self)
  | first :: second :: rest, chosen =>
      rw [← Option.some.inj chosen]
      exact .choice (by simp [isDrawn, counted]) serves weighs

end Leaf

end PackModels
