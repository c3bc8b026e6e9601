import Mathlib.Data.List.Forall2

/-!
Contract: lists whose items belong together one by one.

Readers that go through a list and stop at the first fault give a list of
results beside it. Every item has its result there, every result its item, and
there is such a list as soon as every item has a result.

Owns: `readEach`, what all these readers do.
-/

namespace PackModels

variable {α β : Type} {related : α → β → Prop} {lefts : List α} {rights : List β}

theorem exists_of_forall₂ (each : List.Forall₂ related lefts rights) :
    (∀ left ∈ lefts, ∃ right ∈ rights, related left right) ∧
      ∀ right ∈ rights, ∃ left ∈ lefts, related left right := by
  induction each with
  | nil => simp
  | cons first _ inductionHypothesis =>
      obtain ⟨forth, back⟩ := inductionHypothesis
      simp only [List.forall_mem_cons, List.exists_mem_cons_iff]
      exact ⟨⟨.inl first, fun left member => .inr (forth left member)⟩,
        .inl first, fun right member => .inr (back right member)⟩

theorem exists_forall₂_iff : (∃ rights, List.Forall₂ related lefts rights) ↔
    ∀ left ∈ lefts, ∃ right, related left right := by
  induction lefts with
  | nil => simp
  | cons left rest inductionHypothesis =>
      rw [List.forall_mem_cons, ← inductionHypothesis]
      constructor
      · rintro ⟨_, each⟩
        obtain ⟨right, rights, first, others, _⟩ := List.forall₂_cons_left_iff.mp each
        exact ⟨⟨right, first⟩, rights, others⟩
      · rintro ⟨⟨right, first⟩, rights, others⟩
        exact ⟨right :: rights, .cons first others⟩

/-- Reads items one by one; the first fault ends the reading. -/
def readEach {Fault : Type} (read : α → Except Fault β) : List α → Except Fault (List β)
  | [] => .ok []
  | item :: rest =>
      match read item with
      | .error fault => .error fault
      | .ok result =>
          match readEach read rest with
          | .error fault => .error fault
          | .ok results => .ok (result :: results)

/-- What is read stands beside what is written. -/
theorem readEach_eq_ok_iff {Fault : Type} {read : α → Except Fault β} :
    readEach read lefts = .ok rights ↔
      List.Forall₂ (fun left right => read left = .ok right) lefts rights := by
  induction lefts generalizing rights with
  | nil => simp [readEach, eq_comm]
  | cons left rest inductionHypothesis =>
      rw [readEach, List.forall₂_cons_left_iff]
      cases read left with
      | error fault => simp
      | ok right =>
          simp only [← inductionHypothesis]
          cases readEach read rest with
          | error fault => simp
          | ok others => simp [eq_comm]

/-- The items that have a mark stand beside what is made of their marks. -/
theorem forall₂_filterMap {Item Mark Result : Type} {mark? : Item → Option Mark}
    {plain : Item → Prop} [DecidablePred plain]
    (isNone_iff : ∀ item, (mark? item).isNone = true ↔ plain item) (result : Item → Mark → Result)
    (items : List Item) :
    List.Forall₂ (fun item made => ∃ mark, mark? item = some mark ∧ made = result item mark)
      (items.filter (fun item => ¬ plain item))
      (items.filterMap (fun item => (mark? item).map (result item))) := by
  induction items with
  | nil => exact .nil
  | cons item rest inductionHypothesis =>
      cases marked : mark? item with
      | none =>
          have isPlain : plain item := (isNone_iff item).mp (by rw [marked]; rfl)
          simpa [marked, isPlain] using inductionHypothesis
      | some mark =>
          have isMarked : ¬ plain item := by
            rw [← isNone_iff, marked]
            simp
          simpa [marked, isMarked] using inductionHypothesis

end PackModels
