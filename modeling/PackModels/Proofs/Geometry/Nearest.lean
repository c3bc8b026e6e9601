import Mathlib.Data.Prod.Lex
import PackModels.Geometry.Rotation

/-!
Contract: the direction that a vector points to, and the side of a turned face.

The numbers of binary32 lie on a line; what is not a number has no place there and
compares with nothing. A direction is preferred to the best one so far only if it
goes further along the vector. So the last one that was preferred is the first of
those that go furthest, and no other direction is.

Owns: `place?`, the line of numbers, and `IsNearest`, which does not go through the
directions.

Does not own: the vector that a rotation makes of a normal, which is as exact as
the sines and cosines of its angles are.
-/

namespace PackModels

namespace Binary32

open Float.Model (UnpackedFloat)

/-! ## The line of numbers -/

/-- Where a number lies: by its kind, from the lowest to the highest one, and then
by its exponent before its mantissa. -/
def place? : UnpackedFloat → Option (ℤ ×ₗ ℤ ×ₗ ℤ)
  | .notANumber => none
  | .infinity .negative => some (toLex (-2, toLex (0, 0)))
  | .finite .negative mantissa exponent _ => some (toLex (-1, toLex (-exponent, -mantissa)))
  | .zero _ => some (toLex (0, toLex (0, 0)))
  | .finite .positive mantissa exponent _ => some (toLex (1, toLex (exponent, mantissa)))
  | .infinity .positive => some (toLex (2, toLex (0, 0)))

theorem compare_neg (left right : ℤ) : compare (-left) (-right) = (compare left right).swap := by
  rw [Int.compare_swap, Int.compare_eq_ite_lt, Int.compare_eq_ite_lt]
  simp only [Int.neg_lt_neg_iff]

theorem compare_natCast (left right : ℕ) : compare (left : ℤ) right = compare left right := by
  rw [Int.compare_eq_ite_lt, Nat.compare_eq_ite_lt]
  simp only [Int.ofNat_lt]

/-- Numbers compare as their places do. -/
theorem compare_eq_place? (left right : UnpackedFloat) : left.compare right =
    (place? left).bind (fun before => (place? right).map (compare before)) := by
  -- The kinds decide, except between two finite numbers of one sign.
  rcases left with (_ | _) | _ | _ | ⟨_ | _, mantissa, exponent, _⟩ <;>
    rcases right with (_ | _) | _ | _ | ⟨_ | _, mantissa', exponent', _⟩ <;>
    try rfl
  case finite.negative.finite.negative =>
    change some ((compare exponent exponent').then (compare mantissa mantissa')).swap =
      some ((compare (-exponent) (-exponent')).then (compare (-(mantissa : ℤ)) (-mantissa')))
    rw [Ordering.swap_then, compare_neg, compare_neg, compare_natCast]
  case finite.positive.finite.positive =>
    change some ((compare exponent exponent').then (compare mantissa mantissa')) =
      some ((compare exponent exponent').then (compare (mantissa : ℤ) mantissa'))
    rw [compare_natCast]

variable {low left right high : Float32}

/-- One number is less than another one if it comes before it on the line. -/
theorem lt_iff : left < right ↔ ∃ before after, place? left.toModel.unpack = some before ∧
    place? right.toModel.unpack = some after ∧ before < after := by
  have unpacked : left < right ↔ left.toModel.unpack.lt right.toModel.unpack = true :=
    decide_eq_true_iff
  rw [unpacked, UnpackedFloat.lt, compare_eq_place?]
  cases place? left.toModel.unpack with
  | none => simp
  | some before =>
      cases place? right.toModel.unpack with
      | none => simp
      | some after => simp [compare_lt_iff_lt]

theorem le_iff : left ≤ right ↔ ∃ before after, place? left.toModel.unpack = some before ∧
    place? right.toModel.unpack = some after ∧ before ≤ after := by
  have unpacked : left ≤ right ↔ left.toModel.unpack.le right.toModel.unpack = true :=
    decide_eq_true_iff
  rw [unpacked, UnpackedFloat.le, compare_eq_place?]
  cases place? left.toModel.unpack with
  | none => simp
  | some before =>
      cases place? right.toModel.unpack with
      | none => simp
      | some after => simp [← Ordering.ne_gt_iff_isLE, compare_le_iff_le]

theorem not_lt_self (number : Float32) : ¬ number < number := by
  intro less
  obtain ⟨before, after, isBefore, isAfter, less⟩ := lt_iff.mp less
  obtain rfl : before = after := Option.some.inj (isBefore.symm.trans isAfter)
  exact less.false

theorem lt_of_lt_of_le (less : low < left) (atMost : left ≤ high) : low < high := by
  obtain ⟨first, second, isFirst, isSecond, less⟩ := lt_iff.mp less
  obtain ⟨second', third, isSecond', isThird, atMost⟩ := le_iff.mp atMost
  obtain rfl : second = second' := Option.some.inj (isSecond.symm.trans isSecond')
  exact lt_iff.mpr ⟨first, third, isFirst, isThird, less.trans_le atMost⟩

theorem le_of_lt (less : left < right) : left ≤ right := by
  obtain ⟨before, after, isBefore, isAfter, less⟩ := lt_iff.mp less
  exact le_iff.mpr ⟨before, after, isBefore, isAfter, less.le⟩

theorem lt_trans (less : low < left) (less' : left < high) : low < high :=
  lt_of_lt_of_le less (le_of_lt less')

/-- What lies above a number has a place, and of two such numbers one is at most the
other one. -/
theorem le_of_not_lt (placed : low < left) (placed' : low < right) (notLess : ¬ left < right) :
    right ≤ left := by
  obtain ⟨_, before, _, isBefore, _⟩ := lt_iff.mp placed
  obtain ⟨_, after, _, isAfter, _⟩ := lt_iff.mp placed'
  refine le_iff.mpr ⟨after, before, isAfter, isBefore, not_lt.mp ?_⟩
  intro less
  exact notLess (lt_iff.mpr ⟨before, after, isBefore, isAfter, less⟩)

end Binary32

namespace Direction

open Binary32 (not_lt_self lt_of_lt_of_le lt_trans le_of_not_lt)

variable {v : Vec3 Float32}

/-- How far a direction goes along a vector. -/
def along (v : Vec3 Float32) (direction : Direction) : Float32 :=
  (normal direction : Vec3 Float32).dot v

/-! ## Going through the directions -/

/-- The better one of the best direction so far and another one. -/
def prefer (v : Vec3 Float32) (best : Direction × Float32) (direction : Direction) :
    Direction × Float32 :=
  if best.2 < along v direction then (direction, along v direction) else best

/-- What holds of the best one of the directions that have been seen: none of them
goes further, and unless it is the one to start with, none before it goes as far. -/
structure Best (v : Vec3 Float32) (seen : List Direction) (best : Direction × Float32) : Prop where
  furthest : ∀ direction ∈ seen, ¬ best.2 < along v direction
  first : best = (north, lowest) ∨ lowest < best.2 ∧ best.2 = along v best.1 ∧
    ∃ before after, seen = before ++ best.1 :: after ∧
      ∀ direction ∈ before, ¬ best.2 ≤ along v direction

theorem Best.prefer {seen : List Direction} {best : Direction × Float32} (holds : Best v seen best)
    (direction : Direction) : Best v (seen ++ [direction]) (prefer v best direction) := by
  unfold Direction.prefer
  split
  · rename_i further
    refine ⟨?furthest, .inr ⟨?above, rfl, seen, [], rfl, ?first⟩⟩
    case furthest =>
      intro other member more
      rcases List.mem_append.mp member with before | last
      · exact holds.furthest other before (lt_trans further more)
      · obtain rfl := List.mem_singleton.mp last
        exact not_lt_self _ more
    case above =>
      rcases holds.first with start | ⟨above, _⟩
      · rw [start] at further
        exact further
      · exact lt_trans above further
    case first =>
      intro other before reached
      exact holds.furthest other before (lt_of_lt_of_le further reached)
  · rename_i notFurther
    refine ⟨?furthest, holds.first.imp_right ?first⟩
    case furthest =>
      intro other member
      rcases List.mem_append.mp member with before | last
      · exact holds.furthest other before
      · obtain rfl := List.mem_singleton.mp last
        exact notFurther
    case first =>
      rintro ⟨above, same, before, after, rfl, first⟩
      exact ⟨above, same, before, after ++ [direction],
        by rw [List.append_assoc, List.cons_append], first⟩

theorem best_foldl (rest : List Direction) {seen : List Direction} {best : Direction × Float32}
    (holds : Best v seen best) : Best v (seen ++ rest) (rest.foldl (prefer v) best) := by
  induction rest generalizing seen best with
  | nil =>
      rw [List.append_nil]
      exact holds
  | cons direction rest inductionHypothesis =>
      have following := inductionHypothesis (holds.prefer direction)
      rw [List.append_assoc, List.singleton_append] at following
      exact following

/-! ## The nearest direction -/

/-- Whether a direction is the nearest one to a vector: of those that go furthest
along it, the first. Where nothing is a number above the lowest one, it is the
north. -/
inductive IsNearest (v : Vec3 Float32) : Direction → Prop
  | nowhere (below : ∀ other, ¬ lowest < along v other) : IsNearest v north
  | first {direction : Direction} (above : lowest < along v direction)
      (furthest : ∀ other, ¬ along v direction < along v other)
      (earlier : ∀ other, other.index < direction.index → ¬ along v direction ≤ along v other) :
      IsNearest v direction

theorem mem_all (direction : Direction) : direction ∈ all := by
  cases direction <;> decide

theorem index_injective : Function.Injective index := by
  intro left right
  cases left <;> cases right <;> decide

/-- A direction comes before another one if its index is less. -/
theorem mem_before {before after : List Direction} {direction other : Direction}
    (parts : all = before ++ direction :: after) (less : other.index < direction.index) :
    other ∈ before := by
  have ordered : all.Pairwise (fun left right => left.index < right.index) := by decide
  rw [parts, List.pairwise_append, List.pairwise_cons] at ordered
  obtain ⟨_, ⟨later, _⟩, _⟩ := ordered
  have member := other.mem_all
  rw [parts] at member
  rcases List.mem_append.mp member with here | there
  · exact here
  · rcases List.mem_cons.mp there with rfl | there
    · exact absurd less (Nat.lt_irrefl _)
    · exact absurd less (Nat.lt_asymm (later other there))

theorem isNearest_nearest (v : Vec3 Float32) : IsNearest v (nearest v) := by
  have start : Best v [] (north, lowest) :=
    ⟨fun _ member => absurd member List.not_mem_nil, .inl rfl⟩
  have holds : Best v all (all.foldl (prefer v) (north, lowest)) := best_foldl all start
  change IsNearest v (all.foldl (prefer v) (north, lowest)).1
  generalize all.foldl (prefer v) (north, lowest) = best at holds
  obtain ⟨furthest, start | ⟨above, same, before, after, parts, first⟩⟩ := holds
  · rw [start] at furthest ⊢
    exact .nowhere (fun other => furthest other other.mem_all)
  · rw [same] at above furthest first
    exact .first above (fun other => furthest other other.mem_all)
      (fun other less => first other (mem_before parts less))

theorem IsNearest.unique {direction other : Direction} (isNearest : IsNearest v direction)
    (isNearest' : IsNearest v other) : direction = other := by
  cases isNearest with
  | nowhere below =>
      cases isNearest' with
      | nowhere _ => rfl
      | first above _ _ => exact absurd above (below other)
  | first above furthest earlier =>
      cases isNearest' with
      | nowhere below => exact absurd above (below direction)
      | first above' furthest' earlier' =>
          rcases Nat.lt_trichotomy direction.index other.index with less | same | less
          · exact absurd (le_of_not_lt above above' (furthest other)) (earlier' direction less)
          · exact index_injective same
          · exact absurd (le_of_not_lt above' above (furthest' direction)) (earlier other less)

/-- The nearest direction is the first of those that go furthest along a vector. -/
theorem nearest_eq_iff {direction : Direction} : nearest v = direction ↔ IsNearest v direction := by
  constructor
  · rintro rfl
    exact isNearest_nearest v
  · exact (isNearest_nearest v).unique

/-- A direction is the nearest one to its own normal. -/
theorem nearest_normal (direction : Direction) : nearest direction.normal = direction := by
  cases direction <;> decide +kernel

end Direction

namespace QuarterTurns

theorem turnFace_identity (direction : Direction) : identity.turnFace direction = direction := by
  have unturned : identity.isIdentity = true := rfl
  rw [turnFace, if_pos unturned]

/-- A turned side is the nearest one to its turned normal. -/
theorem turnFace_eq_iff {turns : QuarterTurns} (turned : turns ≠ identity)
    {direction side : Direction} : turns.turnFace direction = side ↔
      Direction.IsNearest (turns.rotation.turn direction.normal) side := by
  have isTurned : turns.isIdentity = false := beq_eq_false_iff_ne.mpr turned
  rw [turnFace, isTurned, if_neg Bool.false_ne_true, Direction.nearest_eq_iff]

end QuarterTurns

end PackModels
