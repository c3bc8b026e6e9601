import Mathlib.Data.List.Chain
import Mathlib.Logic.Relation

/-!
Contract: what a relation from children to parents leads to.

Every id has at most one parent, so from each id there is one way up. The way
from an id on a loop stays on the loop and comes back to the id. A list of ids
ascends when each one is the parent of the one after it; where the parent of
its first id is one of its members, exactly the ids from the first down to that
one are on a loop, and read backwards they go once around it.
-/

namespace PackModels.Lineage

variable {Id : Type} {parent? : Id → Option Id}

/-- One id is the parent of another. -/
def IsParent (parent? : Id → Option Id) (child parent : Id) : Prop :=
  parent? child = some parent

/-- The way up from one id leads to another, or the two are the same. -/
def Reaches (parent? : Id → Option Id) : Id → Id → Prop :=
  Relation.ReflTransGen (IsParent parent?)

/-- The way up from an id comes back to it. -/
def OnLoop (parent? : Id → Option Id) (id : Id) : Prop :=
  Relation.TransGen (IsParent parent?) id id

theorem IsParent.unique {child left right : Id} (first : IsParent parent? child left)
    (second : IsParent parent? child right) : left = right :=
  Option.some.inj (first.symm.trans second)

/-- What holds of an id and passes on to parents holds along the way up. -/
theorem Reaches.closed {holds : Id → Prop}
    (closed : ∀ child parent, holds child → IsParent parent? child parent → holds parent)
    {lower upper : Id} (reaches : Reaches parent? lower upper) (start : holds lower) :
    holds upper := by
  induction reaches with
  | refl => exact start
  | tail _ step inductionHypothesis => exact closed _ _ inductionHypothesis step

/-- From wherever the way up has led, it goes on to its end. -/
theorem Reaches.to_end {id last upper : Id} (toEnd : Reaches parent? id last)
    (ended : parent? last = none) (reaches : Reaches parent? id upper) :
    Reaches parent? upper last := by
  induction reaches with
  | refl => exact toEnd
  | tail _ step inductionHypothesis =>
      rcases Relation.ReflTransGen.cases_head inductionHypothesis with same | ⟨next, first, above⟩
      · subst same
        exact absurd (ended.symm.trans step) (by simp)
      · exact first.unique step ▸ above

theorem Reaches.eq_of_parent?_eq_none {last upper : Id} (reaches : Reaches parent? last upper)
    (ended : parent? last = none) : upper = last := by
  rcases Relation.ReflTransGen.cases_head reaches with same | ⟨next, first, _⟩
  · exact same.symm
  · exact absurd (ended.symm.trans first) (by simp)

/-! ## Loops -/

theorem onLoop_iff {id : Id} :
    OnLoop parent? id ↔ ∃ parent, IsParent parent? id parent ∧ Reaches parent? parent id :=
  Relation.TransGen.head'_iff

theorem not_onLoop_of_parent?_eq_none {id : Id} (none : parent? id = none) :
    ¬ OnLoop parent? id := by
  intro loop
  obtain ⟨parent, isParent, _⟩ := onLoop_iff.mp loop
  exact absurd (none.symm.trans isParent) (by simp)

/-- The way up from an id on a loop comes back to the id from wherever it has
led to. -/
theorem OnLoop.reaches_back {lower upper : Id} (loop : OnLoop parent? lower)
    (reaches : Reaches parent? lower upper) : Reaches parent? upper lower := by
  induction reaches with
  | refl => exact .refl
  | tail _ step inductionHypothesis =>
      rcases Relation.ReflTransGen.cases_head inductionHypothesis with same | ⟨next, first, back⟩
      · subst same
        obtain ⟨parent, isParent, back⟩ := onLoop_iff.mp loop
        exact isParent.unique step ▸ back
      · exact first.unique step ▸ back

theorem OnLoop.of_reaches {lower upper : Id} (loop : OnLoop parent? lower)
    (reaches : Reaches parent? lower upper) : OnLoop parent? upper :=
  Relation.TransGen.trans_right (loop.reaches_back reaches) (loop.trans_left reaches)

/-! ## Ascending lists -/

/-- Each id of a list is the parent of the one after it. -/
def Ascends (parent? : Id → Option Id) (ids : List Id) : Prop :=
  ids.IsChain (fun upper lower => IsParent parent? lower upper)

theorem Ascends.cons {top : Id} {below : List Id} (ascends : Ascends parent? below)
    (parent : ∀ lower ∈ below.head?, IsParent parent? lower top) :
    Ascends parent? (top :: below) :=
  List.isChain_cons.mpr ⟨parent, ascends⟩

theorem Ascends.tail {top : Id} {below : List Id} (ascends : Ascends parent? (top :: below)) :
    Ascends parent? below :=
  List.IsChain.tail ascends

theorem Ascends.reaches_head {top : Id} {below : List Id}
    (ascends : Ascends parent? (top :: below)) :
    ∀ id ∈ top :: below, Reaches parent? id top := by
  induction below generalizing top with
  | nil =>
      intro id member
      rw [List.mem_singleton.mp member]
      exact .refl
  | cons next below inductionHypothesis =>
      intro id member
      obtain ⟨step, rest⟩ := List.isChain_cons_cons.mp ascends
      rcases List.mem_cons.mp member with same | lower
      · rw [same]
        exact .refl
      · exact .tail (inductionHypothesis rest id lower) step

theorem Ascends.last_reaches {front : List Id} {last : Id}
    (ascends : Ascends parent? (front ++ [last])) :
    ∀ id ∈ front ++ [last], Reaches parent? last id := by
  induction front with
  | nil =>
      intro id member
      rw [List.mem_singleton.mp member]
      exact .refl
  | cons top front inductionHypothesis =>
      intro id member
      have rest := inductionHypothesis ascends.tail
      rcases List.mem_cons.mp member with same | lower
      · rw [same]
        obtain ⟨next, below, split⟩ := List.exists_cons_of_ne_nil
          (show front ++ [last] ≠ [] by simp)
        rw [List.cons_append, split] at ascends
        exact .tail (rest next (by simp [split])) (List.isChain_cons_cons.mp ascends).1
      · exact rest id lower

/-- The parent of any id but the first is in the list. -/
theorem Ascends.parent_mem {top : Id} {below : List Id}
    (ascends : Ascends parent? (top :: below)) {child parent : Id}
    (member : child ∈ below) (isParent : IsParent parent? child parent) :
    parent ∈ top :: below := by
  induction below generalizing top with
  | nil => cases member
  | cons next below inductionHypothesis =>
      obtain ⟨step, rest⟩ := List.isChain_cons_cons.mp ascends
      rcases List.mem_cons.mp member with same | lower
      · subst same
        exact isParent.unique step ▸ List.mem_cons_self
      · exact List.mem_cons_of_mem _ (inductionHypothesis rest lower)

/-- Where the parent of the first id of an ascending list is one of its
members, the loop consists of the ids down to that one. -/
theorem Ascends.onLoop_iff {top entry : Id} {front back : List Id}
    (ascends : Ascends parent? (front ++ entry :: back))
    (first : (front ++ entry :: back).head? = some top)
    (closes : IsParent parent? top entry) :
    ∀ id ∈ front ++ entry :: back, OnLoop parent? id ↔ id ∈ front ++ [entry] := by
  have regroup : front ++ entry :: back = (front ++ [entry]) ++ back := by simp
  have upper : Ascends parent? (front ++ [entry]) := by
    rw [regroup] at ascends
    exact List.IsChain.left_of_append ascends
  have lower : Ascends parent? (entry :: back) := List.IsChain.right_of_append ascends
  obtain ⟨rest, loop⟩ : ∃ rest, front ++ [entry] = top :: rest := by
    cases front with
    | nil => exact ⟨[], by simpa using first⟩
    | cons head tail =>
        obtain rfl : head = top := by simpa using first
        exact ⟨tail ++ [entry], rfl⟩
  have around : ∀ id ∈ front ++ [entry], Reaches parent? id entry := by
    intro id member
    rw [loop] at upper member
    exact .tail (upper.reaches_head id member) closes
  have closed : ∀ child parent, child ∈ front ++ [entry] → IsParent parent? child parent →
      parent ∈ front ++ [entry] := by
    intro child parent member isParent
    rw [loop] at member upper
    rcases List.mem_cons.mp member with same | below
    · subst same
      rw [isParent.unique closes]
      simp
    · rw [loop]
      exact upper.parent_mem below isParent
  intro id member
  constructor
  · intro onLoop
    rw [regroup, List.mem_append] at member
    rcases member with inside | outside
    · exact inside
    · have back_reaches := lower.reaches_head id (List.mem_cons_of_mem _ outside)
      exact (onLoop.reaches_back back_reaches).closed closed (by simp)
  · intro inside
    have leaves := around id inside
    have returns := upper.last_reaches id inside
    rcases Relation.ReflTransGen.cases_head leaves with same | ⟨next, step, onward⟩
    · subst same
      exact Relation.TransGen.tail' (upper.last_reaches top (by simp [loop])) closes
    · exact Relation.TransGen.head' step (onward.trans returns)

/-! ## Once around a loop -/

/-- A list of ids that goes once around a loop: after each id comes its parent,
and the parent of the last one is the first. -/
structure Circuit (parent? : Id → Option Id) (first : Id) (others : List Id) : Prop where
  distinct : (first :: others).Nodup
  climbs : (first :: (others ++ [first])).IsChain (IsParent parent?)

/-- Where the parent of the first id of an ascending list is the last one, the
list read backwards goes once around a loop. -/
theorem Ascends.circuit {top entry : Id} {front : List Id}
    (ascends : Ascends parent? (front ++ [entry]))
    (first : (front ++ [entry]).head? = some top) (closes : IsParent parent? top entry)
    (distinct : (front ++ [entry]).Nodup) : Circuit parent? entry front.reverse := by
  have backwards : entry :: front.reverse = (front ++ [entry]).reverse := by simp
  constructor
  · rw [backwards]
    exact (List.reverse_perm _).nodup_iff.mpr distinct
  · show ((entry :: front.reverse) ++ [entry]).IsChain (IsParent parent?)
    rw [backwards, List.isChain_append, List.isChain_reverse]
    refine ⟨ascends, List.isChain_singleton entry, ?_⟩
    intro upper isLast next isNext
    rw [List.getLast?_reverse, first] at isLast
    obtain rfl : top = upper := by simpa using isLast
    obtain rfl : entry = next := by simpa using isNext
    exact closes

theorem Circuit.ascends {first : Id} {others : List Id} (circuit : Circuit parent? first others) :
    Ascends parent? (first :: (others.reverse ++ [first])) := by
  have backwards : first :: (others.reverse ++ [first]) =
      (first :: (others ++ [first])).reverse := by simp
  rw [Ascends, backwards, List.isChain_reverse]
  exact circuit.climbs

/-- A list that goes once around a loop holds all of it and nothing else. -/
theorem Circuit.mem_iff {first : Id} {others : List Id} (circuit : Circuit parent? first others)
    {id : Id} : id ∈ first :: others ↔ Reaches parent? first id := by
  have ascends := circuit.ascends
  constructor
  · intro member
    rw [← List.cons_append] at ascends
    exact ascends.last_reaches id (by simpa [or_comm] using member)
  · intro reaches
    refine reaches.closed (fun child parent member isParent => ?_) List.mem_cons_self
    have above := ascends.parent_mem (by simpa [or_comm] using member) isParent
    simpa [or_comm] using above

end PackModels.Lineage
