import Mathlib.Data.List.Basic
import PackModels.Groups
import PackModels.Proofs.Tags
import Std.Data.HashMap.Lemmas

/-!
Contract: how looks are numbered.

Looks are counted first and numbered in a second pass: a look that is there
more than once gets the next number when it is passed first. So the numbers are
those from one to the number of such looks, each look has its own, and they
follow the order in which the looks are passed first.

Owns: `Ordinal`, what holds of the numbers after each look.
-/

namespace PackModels

namespace Look

/-! ## Numbering looks -/

/-- Counting a list adds the number of its occurrences to what is counted. -/
theorem getD_foldl_counts (looks : List Look) (before : Std.HashMap Look Nat) (look : Look) :
    (looks.foldl (fun counts found => counts.insert found (counts.getD found 0 + 1))
      before).getD look 0 = before.getD look 0 + looks.count look := by
  induction looks generalizing before with
  | nil => rfl
  | cons found rest inductionHypothesis =>
      rw [List.foldl_cons, inductionHypothesis, Std.HashMap.getD_insert, List.count_cons]
      by_cases same : (found == look) = true
      · rw [if_pos same, if_pos same, eq_of_beq same]
        omega
      · rw [if_neg same, if_neg same]
        omega

theorem getD_counts (looks : List Look) (look : Look) :
    (counts looks).getD look 0 = looks.count look := by
  unfold counts
  rw [getD_foldl_counts, Std.HashMap.getD_empty, Nat.zero_add]

/-- What holds of the numbers that are given when the looks of `done` have been
passed, of which those that are `several` get one. -/
structure Ordinal (several : Look → Prop) (done : List Look) (find : Look → Option Nat)
    (last : Nat) : Prop where
  tagged : Tagged id find last
  known : ∀ look, (∃ number, find look = some number) ↔ look ∈ done ∧ several look
  onto : ∀ number, 0 < number → number ≤ last → ∃ look, find look = some number
  ordered : ∀ left right number number', find left = some number →
    find right = some number' → number < number' → done.idxOf left < done.idxOf right

namespace Ordinal

variable {several : Look → Prop} {done : List Look} {find find' : Look → Option Nat}
  {last : Nat}

theorem start (several : Look → Prop) (nothing : ∀ look, find look = none) :
    Ordinal several [] find 0 where
  tagged := Tagged.of_nothing nothing
  known := by
    intro look
    rw [nothing]
    simp
  onto := by
    intro number positive bounded
    omega
  ordered := by
    intro left right number number' found
    rw [nothing] at found
    cases found

theorem mem_done (ordinal : Ordinal several done find last) {look : Look} {number : Nat}
    (found : find look = some number) : look ∈ done :=
  ((ordinal.known look).mp ⟨number, found⟩).1

/-- A look that has a number, or that gets none, changes nothing. -/
theorem keep (ordinal : Ordinal several done find last) {look : Look}
    (settled : several look → ∃ number, find look = some number) :
    Ordinal several (done ++ [look]) find last where
  tagged := ordinal.tagged
  known := by
    intro other
    rw [ordinal.known other, List.mem_append, List.mem_singleton]
    constructor
    · exact fun both => ⟨.inl both.1, both.2⟩
    · rintro ⟨before | rfl, repeated⟩
      · exact ⟨before, repeated⟩
      · exact (ordinal.known other).mp (settled repeated)
  onto := ordinal.onto
  ordered := by
    intro left right number number' foundLeft foundRight less
    rw [List.idxOf_append_of_mem (ordinal.mem_done foundLeft),
      List.idxOf_append_of_mem (ordinal.mem_done foundRight)]
    exact ordinal.ordered left right number number' foundLeft foundRight less

/-- A look without a number gets the next one, and comes after all that have one. -/
theorem insert (ordinal : Ordinal several done find last) {look : Look}
    (repeated : several look) (unknown : find look = none)
    (here : find' look = some (last + 1))
    (elsewhere : ∀ other, other ≠ look → find' other = find other) :
    Ordinal several (done ++ [look]) find' (last + 1) := by
  have tagged : Tagged id find' (id (last + 1)) :=
    ordinal.tagged.insert (Nat.lt_succ_self last) here elsewhere
  have notDone : look ∉ done := by
    intro before
    obtain ⟨number, found⟩ := (ordinal.known look).mpr ⟨before, repeated⟩
    rw [unknown] at found
    cases found
  refine ⟨tagged, ?known, ?onto, ?ordered⟩
  case known =>
    intro other
    rw [List.mem_append, List.mem_singleton]
    by_cases same : other = look
    · rw [same]
      exact ⟨fun _ => ⟨.inr rfl, repeated⟩, fun _ => ⟨last + 1, here⟩⟩
    · rw [elsewhere other same, ordinal.known other, or_iff_left same]
  case onto =>
    intro number positive bounded
    by_cases isLast : number = last + 1
    · exact ⟨look, isLast ▸ here⟩
    · obtain ⟨other, found⟩ := ordinal.onto number positive (by omega)
      have different : other ≠ look := by
        rintro rfl
        exact notDone (ordinal.mem_done found)
      exact ⟨other, (elsewhere other different).trans found⟩
  case ordered =>
    intro left right number number' foundLeft foundRight less
    have bound : number' ≤ last + 1 := tagged.bounded right number' foundRight
    -- The smaller number is not the last one, so its look was done before.
    have differentLeft : left ≠ look := by
      rintro rfl
      rw [here, Option.some.injEq] at foundLeft
      omega
    rw [elsewhere left differentLeft] at foundLeft
    have doneLeft := ordinal.mem_done foundLeft
    rw [List.idxOf_append_of_mem doneLeft]
    by_cases isLook : right = look
    · rw [isLook, List.idxOf_append_of_notMem notDone]
      have inside := List.idxOf_lt_length_of_mem doneLeft
      omega
    · rw [elsewhere right isLook] at foundRight
      rw [List.idxOf_append_of_mem (ordinal.mem_done foundRight)]
      exact ordinal.ordered left right number number' foundLeft foundRight less

theorem next [DecidablePred several] {numbers : Std.HashMap Look Nat}
    (ordinal : Ordinal several done (fun look => numbers[look]?) numbers.size) (look : Look) :
    let after := if several look then numbers.insertIfNew look (numbers.size + 1) else numbers
    Ordinal several (done ++ [look]) (fun other => after[other]?) after.size := by
  intro after
  by_cases repeated : several look
  · have inserted : after = numbers.insertIfNew look (numbers.size + 1) := if_pos repeated
    rw [inserted, Std.HashMap.size_insertIfNew]
    by_cases known : look ∈ numbers
    · have same : ∀ other : Look,
          (numbers.insertIfNew look (numbers.size + 1))[other]? = numbers[other]? := by
        intro other
        rw [Std.HashMap.getElem?_insertIfNew, if_neg (fun both => both.2 known)]
      rw [if_pos known]
      simp only [same]
      exact ordinal.keep (fun _ => ⟨_, Std.HashMap.getElem?_eq_some_getElem known⟩)
    · rw [if_neg known]
      apply ordinal.insert repeated (Std.HashMap.getElem?_eq_none known)
      · rw [Std.HashMap.getElem?_insertIfNew, if_pos ⟨beq_self_eq_true look, known⟩]
      · intro other different
        have unequal : (look == other) = false := beq_false_of_ne (Ne.symm different)
        rw [Std.HashMap.getElem?_insertIfNew, unequal, if_neg (by simp)]
  · have kept : after = numbers := if_neg repeated
    rw [kept]
    exact ordinal.keep (fun again => absurd again repeated)

end Ordinal

theorem ordinal_numbers (looks : List Look) :
    Ordinal (fun look => 1 < looks.count look) looks (fun look => (numbers looks)[look]?)
      (numbers looks).size := by
  unfold numbers
  simp only [getD_counts]
  -- The induction is on the looks that are left; which looks are several is fixed.
  suffices run : ∀ rest done (before : Std.HashMap Look Nat), looks = done ++ rest →
      Ordinal (fun look => 1 < looks.count look) done (fun look => before[look]?) before.size →
      let after := rest.foldl (fun numbers look =>
        if 1 < looks.count look then numbers.insertIfNew look (numbers.size + 1) else numbers)
        before
      Ordinal (fun look => 1 < looks.count look) looks (fun look => after[look]?) after.size from
    run looks [] ∅ rfl (Ordinal.start _ (fun _ => Std.HashMap.getElem?_empty))
  intro rest
  induction rest with
  | nil =>
      intro done before split ordinal
      rw [split, List.append_nil] at ordinal ⊢
      exact ordinal
  | cons look rest inductionHypothesis =>
      intro done before split ordinal
      apply inductionHypothesis (done ++ [look])
      · rw [split, List.append_assoc, List.singleton_append]
      · exact ordinal.next look

end Look

end PackModels
