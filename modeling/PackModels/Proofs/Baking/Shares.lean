import Mathlib.Order.Interval.Finset.Nat
import PackModels.Baking.Draw
import PackModels.Proofs.Baking.Weights

/-!
Contract: how the draws of a choice are shared out.

Weights are added up as numbers without bound, and a list of fewer entries than a
weight has values stays below the bound of a total. Then every draw below the
total picks one entry, and an entry is picked by as many draws as it weighs: those
from the weight of the entries before it on. `pick` follows a draw through the
entries with every subtraction checked, so a draw that went below zero or past the
last entry would be a fault.

Owns: `weightSum`, exact sums of weights, and `pick`, the position that a draw
stops at.
-/

namespace PackModels.StateModel

/-! ## Sums of weights -/

/-- The exact sum of some weights. -/
def weightSum : List UInt32 → Nat
  | [] => 0
  | weight :: rest => weight.toNat + weightSum rest

/-- Weights of zero add nothing. -/
theorem weightSum_filter (weights : List UInt32) :
    weightSum (weights.filter (fun weight => 0 < weight)) = weightSum weights := by
  induction weights with
  | nil => rfl
  | cons weight rest inductionHypothesis =>
      by_cases positive : 0 < weight
      · simp [weightSum, positive, inductionHypothesis]
      · have zero : weight = 0 := not_positive_iff.mp positive
        simp [weightSum, zero, inductionHypothesis]

/-- No weight is more than the sum that it is part of. -/
theorem le_weightSum {weights : List UInt32} {weight : UInt32} (member : weight ∈ weights) :
    weight.toNat ≤ weightSum weights := by
  induction weights with
  | nil => simp at member
  | cons first rest inductionHypothesis =>
      rw [weightSum]
      rcases List.mem_cons.mp member with same | later
      · rw [same]
        omega
      · have bounded := inductionHypothesis later
        omega

theorem weightSum_le (weights : List UInt32) :
    weightSum weights ≤ weights.length * 4294967295 := by
  induction weights with
  | nil => exact Nat.zero_le _
  | cons weight rest inductionHypothesis =>
      have bounded : weight.toNat < 4294967296 := weight.toNat_lt
      simp only [weightSum, List.length_cons]
      omega

/-- Fewer weights than a weight has values do not reach the bound of a total. -/
theorem weightSum_lt {weights : List UInt32} (few : weights.length < 4294967296) :
    weightSum weights < Draw.wordCount := by
  have bounded := weightSum_le weights
  simp only [Draw.wordCount]
  omega

/-- A total is the exact sum as far as a total can count. -/
theorem toNat_totalWeight (entries : List WeightedModel) :
    (totalWeight entries).toNat =
      weightSum (entries.map WeightedModel.weight) % Draw.wordCount := by
  induction entries with
  | nil => rfl
  | cons entry rest inductionHypothesis =>
      simp only [totalWeight, List.map_cons, weightSum, UInt64.toNat_add, UInt32.toNat_toUInt64,
        inductionHypothesis]
      exact Nat.add_mod_mod _ _ _

/-! ## The position that a draw stops at -/

/-- What can go wrong in picking an entry. -/
inductive PickFault where
  | belowZero
  | nothingLeft
deriving DecidableEq, Repr

/-- A difference, where it does not go below zero. -/
def subtract? (number amount : UInt64) : Option UInt64 :=
  if amount ≤ number then some (number - amount) else none

/-- The position of the entry that a draw picks, with every subtraction checked. -/
def pick : List WeightedModel → UInt64 → Except PickFault Nat
  | [], _ => .error .nothingLeft
  | entry :: rest, draw =>
      if draw < entry.weight.toUInt64 then
        .ok 0
      else
        match subtract? draw entry.weight.toUInt64 with
        | none => .error .belowZero
        | some left => (pick rest left).map (fun position => position + 1)

section Pick

variable {entry : WeightedModel} {rest entries : List WeightedModel} {draw : UInt64}

theorem lt_weight_iff : draw < entry.weight.toUInt64 ↔ draw.toNat < entry.weight.toNat := by
  rw [UInt64.lt_iff_toNat_lt, UInt32.toNat_toUInt64]

theorem pick_of_lt (below : draw < entry.weight.toUInt64) : pick (entry :: rest) draw = .ok 0 := by
  rw [pick, if_pos below]

/-- An entry that is passed weighs no more than what is left of the draw. -/
theorem pick_of_not_lt (covered : ¬ draw < entry.weight.toUInt64) :
    pick (entry :: rest) draw =
      (pick rest (draw - entry.weight.toUInt64)).map (fun position => position + 1) := by
  rw [pick, if_neg covered, subtract?, if_pos (UInt64.not_lt.mp covered)]

theorem toNat_sub_weight (covered : ¬ draw < entry.weight.toUInt64) :
    (draw - entry.weight.toUInt64).toNat = draw.toNat - entry.weight.toNat := by
  rw [UInt64.toNat_sub_of_le _ _ (UInt64.not_lt.mp covered), UInt32.toNat_toUInt64]

/-- How much the entries before a position weigh. -/
def weightBefore (entries : List WeightedModel) (position : Nat) : Nat :=
  weightSum ((entries.take position).map WeightedModel.weight)

theorem weightBefore_zero : weightBefore entries 0 = 0 := by
  simp [weightBefore, weightSum]

theorem weightBefore_succ (entry : WeightedModel) (rest : List WeightedModel) (position : Nat) :
    weightBefore (entry :: rest) (position + 1) =
      entry.weight.toNat + weightBefore rest position := by
  simp [weightBefore, weightSum]

/-- An entry is picked by the draws from the weight before it on, as many as it
weighs. -/
theorem pick_eq_ok_iff {position : Nat} :
    pick entries draw = .ok position ↔ ∃ entry, entries[position]? = some entry ∧
      weightBefore entries position ≤ draw.toNat ∧
      draw.toNat < weightBefore entries position + entry.weight.toNat := by
  induction entries generalizing draw position with
  | nil => simp [pick]
  | cons first rest inductionHypothesis =>
      by_cases below : draw < first.weight.toUInt64
      · have belowWeight := lt_weight_iff.mp below
        rw [pick_of_lt below]
        cases position with
        | zero => simpa [weightBefore_zero] using belowWeight
        | succ position =>
            simp only [weightBefore_succ, Except.ok.injEq]
            constructor
            · intro impossible
              omega
            · rintro ⟨_, _, reached, _⟩
              omega
      · have covered := lt_weight_iff.not.mp below
        have left := toNat_sub_weight below
        rw [pick_of_not_lt below]
        cases position with
        | zero =>
            have notHere : (pick rest (draw - first.weight.toUInt64)).map
                (fun position => position + 1) ≠ .ok 0 := by
              cases pick rest (draw - first.weight.toUInt64) <;> simp [Except.map]
            simpa [weightBefore_zero, notHere] using covered
        | succ position =>
            have shifted : (pick rest (draw - first.weight.toUInt64)).map
                (fun position => position + 1) = .ok (position + 1) ↔
                pick rest (draw - first.weight.toUInt64) = .ok position := by
              cases pick rest (draw - first.weight.toUInt64) <;> simp [Except.map]
            rw [shifted, inductionHypothesis, left]
            simp only [weightBefore_succ, List.getElem?_cons_succ]
            constructor
            · rintro ⟨entry, held, reached, short⟩
              exact ⟨entry, held, by omega, by omega⟩
            · rintro ⟨entry, held, reached, short⟩
              exact ⟨entry, held, by omega, by omega⟩

/-- A draw picks an entry exactly if it is below the weight of all of them. -/
theorem exists_pick_iff : (∃ position, pick entries draw = .ok position) ↔
    draw.toNat < weightSum (entries.map WeightedModel.weight) := by
  induction entries generalizing draw with
  | nil => simp [pick, weightSum]
  | cons first rest inductionHypothesis =>
      rw [List.map_cons, weightSum]
      by_cases below : draw < first.weight.toUInt64
      · have belowWeight := lt_weight_iff.mp below
        rw [pick_of_lt below]
        simp only [Except.ok.injEq, exists_eq', true_iff]
        omega
      · have covered := lt_weight_iff.not.mp below
        have follows := @inductionHypothesis (draw - first.weight.toUInt64)
        rw [toNat_sub_weight below] at follows
        have shorter : draw.toNat - first.weight.toNat <
            weightSum (rest.map WeightedModel.weight) ↔
            draw.toNat < first.weight.toNat + weightSum (rest.map WeightedModel.weight) := by
          omega
        rw [pick_of_not_lt below, ← shorter, ← follows]
        cases pick rest (draw - first.weight.toUInt64) <;> simp [Except.map]

/-- The model that a draw selects is that of the entry at its position. -/
theorem select?_eq (entries : List WeightedModel) (draw : UInt64) :
    select? entries draw =
      (pick entries draw).toOption.bind
        (fun position => entries[position]?.map WeightedModel.model) := by
  induction entries generalizing draw with
  | nil => rfl
  | cons entry rest inductionHypothesis =>
      rw [select?]
      by_cases below : draw < entry.weight.toUInt64
      · rw [if_pos below, pick_of_lt below]
        rfl
      · rw [if_neg below, pick_of_not_lt below, inductionHypothesis]
        cases pick rest (draw - entry.weight.toUInt64) <;> rfl

end Pick

/-! ## Shares -/

/-- Between two bounds there are as many numbers as they are apart. -/
theorem card_between {low width count : Nat} (inside : low + width ≤ count) :
    ((Finset.range count).filter (fun number => low ≤ number ∧ number < low + width)).card =
      width := by
  have interval : (Finset.range count).filter
      (fun number => low ≤ number ∧ number < low + width) = Finset.Ico low (low + width) := by
    ext number
    simp only [Finset.mem_filter, Finset.mem_range, Finset.mem_Ico]
    omega
  rw [interval, Nat.card_Ico]
  omega

theorem weightBefore_add_le {entries : List WeightedModel} {position : Nat} {entry : WeightedModel}
    (held : entries[position]? = some entry) :
    weightBefore entries position + entry.weight.toNat ≤
      weightSum (entries.map WeightedModel.weight) := by
  induction entries generalizing position with
  | nil => simp at held
  | cons first rest inductionHypothesis =>
      rw [List.map_cons, weightSum]
      cases position with
      | zero =>
          rw [List.getElem?_cons_zero, Option.some.injEq] at held
          rw [weightBefore_zero, held]
          omega
      | succ position =>
          have inside := inductionHypothesis held
          rw [weightBefore_succ]
          omega

/-- A choice keeps the entries that weigh something, at least two. -/
theorem eq_of_ofWeighted? {entries kept : List WeightedModel} {total : UInt64}
    (several : ofWeighted? entries = some (.weighted kept total)) :
    kept = entries.filter (fun entry => 0 < entry.weight) ∧ 2 ≤ kept.length ∧
      total = totalWeight kept := by
  have weighed : weigh "" entries = .ok (.weighted kept total) := by
    rw [weigh, several]
  have chosen := chosen_weigh "" entries
  rw [weighed] at chosen
  cases chosen with
  | several positive many => exact ⟨positive, many, rfl⟩

theorem weightSum_kept (entries : List WeightedModel) :
    weightSum ((entries.filter (fun entry => 0 < entry.weight)).map WeightedModel.weight) =
      weightSum (entries.map WeightedModel.weight) := by
  rw [← weightSum_filter (entries.map WeightedModel.weight), List.filter_map]
  rfl

/-- The total of a choice is the exact sum of the positive weights. Every draw
below it goes through the entries without going below zero and picks one model,
and each entry is picked by as many draws as it weighs: those from the weight of
the entries before it on. -/
theorem ofWeighted?_shares {entries kept : List WeightedModel} {total : UInt64}
    (few : entries.length < 4294967296)
    (several : ofWeighted? entries = some (.weighted kept total)) :
    (kept = entries.filter (fun entry => 0 < entry.weight) ∧
      total.toNat = weightSum (kept.map WeightedModel.weight)) ∧
    (∀ draw < total, ∃ position entry, pick kept draw = .ok position ∧
      kept[position]? = some entry ∧
      ∀ (Source : Type) (random : UInt64 → Source → UInt64 × Source) (source : Source),
        (random total source).1 = draw →
          collect random (.weighted kept total) source =
            ([entry.model], (random total source).2)) ∧
    ∀ position entry, kept[position]? = some entry →
      (∀ draw, pick kept draw = .ok position ↔ weightBefore kept position ≤ draw.toNat ∧
        draw.toNat < weightBefore kept position + entry.weight.toNat) ∧
      ((Finset.range total.toNat).filter
        (fun draw => pick kept (.ofNat draw) = .ok position)).card = entry.weight.toNat := by
  obtain ⟨positive, _, isTotal⟩ := eq_of_ofWeighted? several
  have short : (kept.map WeightedModel.weight).length < 4294967296 := by
    rw [List.length_map, positive]
    exact Nat.lt_of_le_of_lt (List.length_filter_le _ _) few
  have exact : total.toNat = weightSum (kept.map WeightedModel.weight) := by
    rw [isTotal, toNat_totalWeight]
    exact Nat.mod_eq_of_lt (weightSum_lt short)
  refine ⟨⟨positive, exact⟩, ?picked, ?shared⟩
  case picked =>
    intro draw below
    have inside : draw.toNat < weightSum (kept.map WeightedModel.weight) :=
      exact ▸ UInt64.lt_iff_toNat_lt.mp below
    obtain ⟨position, picked⟩ := exists_pick_iff.mpr inside
    obtain ⟨entry, held, _⟩ := pick_eq_ok_iff.mp picked
    refine ⟨position, entry, picked, held, ?_⟩
    intro Source random source drawn
    rw [collect, drawn, select?_eq, picked]
    simp [Except.toOption, held]
  case shared =>
    intro position entry held
    have share : ∀ draw, pick kept draw = .ok position ↔
        weightBefore kept position ≤ draw.toNat ∧
          draw.toNat < weightBefore kept position + entry.weight.toNat := by
      intro draw
      rw [pick_eq_ok_iff]
      simp [held]
    refine ⟨share, ?_⟩
    have bounded : total.toNat < 18446744073709551616 := total.toNat_lt
    have within : weightBefore kept position + entry.weight.toNat ≤ total.toNat :=
      exact ▸ weightBefore_add_le held
    rw [← card_between within]
    apply congrArg Finset.card
    apply Finset.filter_congr
    intro draw listed
    have small : draw < 18446744073709551616 :=
      Nat.lt_trans (Finset.mem_range.mp listed) bounded
    rw [share, UInt64.toNat_ofNat_of_lt' small]

/-- Three models of one kind: the first one weighs three, the second one nothing
and the third one as much as a weight can. -/
def unevenEntries : List WeightedModel :=
  let model := Bake.missingModel AtlasSet.missingOnly.missing
  [⟨3, ⟨1, model⟩⟩, ⟨0, ⟨2, model⟩⟩, ⟨4294967295, ⟨3, model⟩⟩]

/-- Three draws pick the first of them, and the fourth one is the first for the last. -/
theorem ofWeighted?_shares_uneven :
    ∃ kept total, unevenEntries.length < 4294967296 ∧
      ofWeighted? unevenEntries = some (.weighted kept total) ∧ total.toNat = 4294967298 ∧
      pick kept 2 = .ok 0 ∧ pick kept 3 = .ok 1 ∧
      ((Finset.range total.toNat).filter
        (fun draw => pick kept (.ofNat draw) = .ok 0)).card = 3 := by
  have few : unevenEntries.length < 4294967296 := by decide
  obtain ⟨kept, total, several⟩ : ∃ kept total,
      ofWeighted? unevenEntries = some (.weighted kept total) := ⟨_, _, rfl⟩
  obtain ⟨⟨positive, exact⟩, _, shares⟩ := ofWeighted?_shares few several
  subst positive
  obtain ⟨first, counted⟩ := shares 0 _ rfl
  obtain ⟨last, _⟩ := shares 1 _ rfl
  exact ⟨_, total, few, several, exact, (first 2).mpr (by decide), (last 3).mpr (by decide), counted⟩

end PackModels.StateModel
