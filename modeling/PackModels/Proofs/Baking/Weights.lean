import PackModels.Proofs.Baking.Calls
import PackModels.Proofs.Binding.Reading

/-!
Contract: what a list of variants is baked to.

The models of a list are weighed once all of them are baked: without a positive
weight there is no choice, a single positive one is no choice either, and of
several each stays in the choice. `Chosen` says so of any weights. A list in a
file is baked and weighed like this whatever its length, apart from a list of one
that weighs nothing: its model is taken all the same.

Owns: `Chosen`.

Does not own: which model a draw picks.
-/

namespace PackModels

/-! ## Weighing -/

/-- What becomes of some models by their weights. -/
inductive Chosen (name : String) : List WeightedModel → Except BakeError StateModel → Prop
  | nothing {entries : List WeightedModel} (light : ∀ entry ∈ entries, entry.weight = 0) :
      Chosen name entries (.error (.emptyChoice name))
  | only {front back : List WeightedModel} {entry : WeightedModel} (positive : 0 < entry.weight)
      (light : ∀ other ∈ front ++ back, other.weight = 0) :
      Chosen name (front ++ entry :: back) (.ok (.single entry.model))
  | several {entries kept : List WeightedModel}
      (positive : kept = entries.filter (fun entry => 0 < entry.weight))
      (many : 2 ≤ kept.length) :
      Chosen name entries (.ok (.weighted kept (StateModel.totalWeight kept)))

namespace StateModel

/-- The choice among some models, or the complaint that there is none. -/
def weigh (name : String) (entries : List WeightedModel) : Except BakeError StateModel :=
  match ofWeighted? entries with
  | some choice => .ok choice
  | none => .error (.emptyChoice name)

theorem not_positive_iff {weight : UInt32} : ¬ 0 < weight ↔ weight = 0 := by
  rw [UInt32.not_lt, UInt32.le_iff_toNat_le, ← UInt32.toNat_inj]
  exact Nat.le_zero

theorem chosen_weigh (name : String) (entries : List WeightedModel) :
    Chosen name entries (weigh name entries) := by
  unfold weigh ofWeighted?
  generalize positive : entries.filter (fun entry => 0 < entry.weight) = kept
  match kept, positive with
  | [], positive =>
      refine .nothing ?_
      intro entry member
      have light := List.filter_eq_nil_iff.mp positive entry member
      rwa [decide_eq_true_iff, not_positive_iff] at light
  | [entry], positive =>
      obtain ⟨front, back, rfl, light, isPositive, others⟩ := List.filter_eq_cons_iff.mp positive
      refine .only (of_decide_eq_true isPositive) ?_
      intro other member
      have isLight : ¬ decide (0 < other.weight) = true := by
        rcases List.mem_append.mp member with early | late
        · exact light other early
        · exact List.filter_eq_nil_iff.mp others other late
      rwa [decide_eq_true_iff, not_positive_iff] at isLight
  | first :: second :: rest, positive =>
      exact .several positive.symm (by simp)

/-- One model alone is no choice, if it weighs anything. -/
theorem weigh_singleton (name : String) {weight : UInt32} (positive : weight ≠ 0)
    (model : Shared BakedModel) : weigh name [⟨weight, model⟩] = .ok (.single model) := by
  have kept : 0 < weight := not_not.mp (not_positive_iff.not.mpr positive)
  simp [weigh, ofWeighted?, kept]

end StateModel

/-! ## Lists of variants -/

namespace Bakery

variable {bakery : Bakery}

/-- Where each of some models can be baked, they are weighed as they are baked. -/
theorem bakeEntries_eq_of_bakeEach {entries : List WeightedVariant} {state after : BakeState}
    {models : List (Shared BakedModel)}
    (baked : bakery.bakeEach (entries.map (fun entry => entry.variant.key)) state =
      (models.map .ok, after)) :
    bakery.bakeEntries entries state =
      (.ok (entries.zipWith (fun entry model => ⟨entry.weight, model⟩) models), after) := by
  induction entries generalizing state models with
  | nil =>
      obtain ⟨isEmpty, rfl⟩ := Prod.mk.inj baked
      obtain rfl := List.map_eq_nil_iff.mp isEmpty.symm
      rfl
  | cons entry rest inductionHypothesis =>
      rw [List.map_cons, bakeEach, Variant.key] at baked
      rw [bakeEntries]
      generalize bakery.bake entry.variant.model entry.variant.placement state = outcome at *
      obtain ⟨result, next⟩ := outcome
      obtain ⟨results, isAfter⟩ := Prod.mk.inj baked
      obtain ⟨model, others, rfl, rfl, areOthers⟩ := List.map_eq_cons_iff.mp results.symm
      dsimp only
      rw [inductionHypothesis (Prod.ext areOthers.symm isAfter)]
      rfl

theorem bakeBinding_weighted (name : String) {entries : List WeightedVariant}
    {state after : BakeState} {models : List WeightedModel}
    (baked : bakery.bakeEntries entries state = (.ok models, after)) :
    bakery.bakeBinding name (.weighted entries) state = (StateModel.weigh name models, after) := by
  rw [bakeBinding, baked, StateModel.weigh]
  dsimp only
  cases StateModel.ofWeighted? models <;> rfl

theorem bakeBinding_single (name : String) {variant : Variant} {state after : BakeState}
    {model : Shared BakedModel}
    (baked : bakery.bakeEach [variant.key] state = ([.ok model], after)) :
    bakery.bakeBinding name (.single variant) state = (.ok (.single model), after) := by
  rw [bakeEach, Variant.key] at baked
  rw [bakeBinding]
  generalize bakery.bake variant.model variant.placement state = outcome at *
  obtain ⟨result, next⟩ := outcome
  obtain ⟨results, rfl⟩ := Prod.mk.inj baked
  obtain ⟨rfl, _⟩ := List.cons.inj results
  rfl

/-- A list of variants is weighed once its models are baked, whatever its length,
apart from a list of one that weighs nothing: its model is taken all the same. -/
theorem bakeBinding_of_many (bakery : Bakery) (name : String) (id : ResourceId)
    (raws : List StateFile.RawVariant) (binding : Binding)
    (bound : (StateFile.RawBinding.many raws).bind id = .ok binding) :
    ∃ entries : List WeightedVariant,
      List.Forall₂ (fun (raw : StateFile.RawVariant) (entry : WeightedVariant) =>
        raw.place id = .ok entry.variant ∧ entry.weight = raw.weight) raws entries ∧
      ∀ (state after : BakeState) (models : List (Shared BakedModel)),
        bakery.bakeEach (entries.map (fun entry => entry.variant.key)) state =
          (models.map .ok, after) →
        let weighed := entries.zipWith
          (fun entry model => WeightedModel.mk entry.weight model) models
        Chosen name weighed (StateModel.weigh name weighed) ∧
        ((∀ raw, raws = [raw] → raw.weight ≠ 0) →
          bakery.bakeBinding name binding state = (StateModel.weigh name weighed, after)) ∧
        ∀ raw, raws = [raw] → raw.weight = 0 → ∃ model, models = [model] ∧
          bakery.bakeBinding name binding state = (.ok (.single model), after) := by
  obtain ⟨entries, placed, bindings⟩ := StateFile.bind_many_eq_ok bound
  have each := StateFile.placeAll_eq_ok_iff.mp placed
  refine ⟨entries, each, ?_⟩
  intro state after models baked weighed
  refine ⟨StateModel.chosen_weigh name weighed, ?_⟩
  rcases bindings with ⟨entry, rfl, rfl⟩ | ⟨several, rfl⟩
  · obtain ⟨raw, ⟨_, sameWeight⟩, rfl⟩ : ∃ raw, (raw.place id = .ok entry.variant ∧
        entry.weight = raw.weight) ∧ raws = [raw] := by
      simpa [List.forall₂_cons_right_iff] using each
    obtain ⟨model, rfl⟩ : ∃ model, models = [model] := by
      have sameLength := congrArg List.length (Prod.mk.inj baked).1
      exact List.length_eq_one_iff.mp (by simpa [bakeEach] using sameLength.symm)
    have alone := bakeBinding_single name baked
    constructor
    · intro positive
      have isPositive : entry.weight ≠ 0 := sameWeight ▸ positive raw rfl
      have weighs : StateModel.weigh name weighed = .ok (.single model) :=
        StateModel.weigh_singleton name isPositive model
      rw [alone, weighs]
    · intro _ _ _
      exact ⟨model, rfl, alone⟩
  · have all := bakeBinding_weighted name (bakeEntries_eq_of_bakeEach baked)
    refine ⟨fun _ => all, ?_⟩
    rintro raw rfl
    obtain ⟨entry, _, rfl⟩ : ∃ entry, _ ∧ entries = [entry] := by
      simpa [List.forall₂_cons_left_iff] using each
    exact absurd rfl (several entry)

/-- A bakery with one model, which has no elements. -/
def plain : Bakery where
  models := ⟨Table.ofPairs [(.inDefaultSpace "plain", ⟨1, ⟨none, ∅, none, none, default, none⟩⟩)],
    ⟨0, .missing⟩⟩
  atlases := .missingOnly

/-- The plain model as it is written, with a weight. -/
def writtenPlain (weight : UInt32) : StateFile.RawVariant :=
  ⟨.inDefaultSpace "plain", 0, 0, false, weight⟩

def placedPlain : Variant :=
  ⟨.inDefaultSpace "plain", .identity⟩

/-- Of two plain models, one of which weighs nothing, the other one is drawn. -/
theorem bakeBinding_of_many_plain :
    ∃ binding first second after,
      (StateFile.RawBinding.many [writtenPlain 0, writtenPlain 7]).bind (.inDefaultSpace "stone") =
        .ok binding ∧
      plain.bakeEach [placedPlain.key, placedPlain.key] .start = ([.ok first, .ok second], after) ∧
      plain.bakeBinding "stone" binding .start = (.ok (.single second), after) := by
  have bound : (StateFile.RawBinding.many [writtenPlain 0, writtenPlain 7]).bind
      (.inDefaultSpace "stone") = .ok (.weighted [⟨0, placedPlain⟩, ⟨7, placedPlain⟩]) := by
    rfl
  obtain ⟨entries, each, bakes⟩ := bakeBinding_of_many plain "stone" _ _ _ bound
  obtain rfl : entries = [⟨0, placedPlain⟩, ⟨7, placedPlain⟩] :=
    Except.ok.inj ((StateFile.placeAll_eq_ok_iff.mpr each).symm.trans rfl)
  obtain ⟨first, second, after, baked⟩ : ∃ first second after,
      plain.bakeEach [placedPlain.key, placedPlain.key] .start =
        ([.ok first, .ok second], after) :=
    ⟨_, _, _, rfl⟩
  obtain ⟨_, weighed, _⟩ := bakes .start after [first, second] baked
  exact ⟨_, first, second, after, bound, baked, weighed (by simp)⟩

/-- One plain model that weighs nothing is drawn, although there is nothing to
choose from. -/
theorem bakeBinding_of_one_weightless :
    ∃ binding model after,
      (StateFile.RawBinding.many [writtenPlain 0]).bind (.inDefaultSpace "stone") = .ok binding ∧
      plain.bakeEach [placedPlain.key] .start = ([.ok model], after) ∧
      StateModel.weigh "stone" [⟨0, model⟩] = .error (.emptyChoice "stone") ∧
      plain.bakeBinding "stone" binding .start = (.ok (.single model), after) :=
  ⟨_, _, _, rfl, rfl, rfl, rfl⟩

end Bakery

end PackModels
