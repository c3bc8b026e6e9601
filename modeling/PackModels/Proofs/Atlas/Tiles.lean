import Mathlib.Data.Rat.Floor
import Mathlib.Data.Set.Prod
import Mathlib.Tactic.Linarith
import Mathlib.Tactic.NormNum
import PackModels.Atlas.Sprite

/-!
Contract: the tiles of an atlas as parts of its surface.

The corners of a sprite are numbers in binary32. There are as many columns and
as many rows as a power of two, so no corner of a tile is rounded, and a point
of the atlas belongs to the tile whose column and row it has. Different tiles
have no point in common.

Owns: the exact value of a number in binary32, and the area of a sprite.

Does not own: which texture is on which tile.
-/

namespace PackModels

/-- The exact value of a number in binary32, if it is finite. -/
def dyadic? (number : Float32) : Option Dyadic :=
  match number.toModel.unpack with
  | .zero _ => some 0
  | .finite sign mantissa exponent _ => some (.ofIntWithPrec (sign.apply mantissa) (-exponent))
  | _ => none

namespace Sprite

/-- The points of an atlas that belong to a sprite. A point on the line between
two sprites belongs to the later column or row. -/
def area (sprite : Sprite) : Set (ℚ × ℚ) :=
  {point | ∃ u0 ∈ dyadic? sprite.u0, ∃ u1 ∈ dyadic? sprite.u1, ∃ v0 ∈ dyadic? sprite.v0,
    ∃ v1 ∈ dyadic? sprite.v1,
      point ∈ Set.Ico u0.toRat u1.toRat ×ˢ Set.Ico v0.toRat v1.toRat}

/-- The lines between columns, and so those between rows, are not rounded. -/
theorem dyadic?_edges : ∀ place : Fin 64,
    dyadic? (Float32.ofNat place / Float32.ofNat columns) = some (.ofIntWithPrec place.val 6) ∧
      dyadic? (Float32.ofNat place / Float32.ofNat columns + 1 / Float32.ofNat columns) =
        some (.ofIntWithPrec (place.val + 1) 6) := by
  decide +kernel

theorem toRat_edge (place : ℤ) : (Dyadic.ofIntWithPrec place 6).toRat = place / 64 := by
  rw [Dyadic.toRat_ofIntWithPrec_eq_mul_two_pow, zpow_neg, div_eq_mul_inv]
  norm_num

theorem mem_Ico_edges_iff {place : ℤ} {x : ℚ} :
    x ∈ Set.Ico ((place : ℚ) / 64) ((place + 1 : ℤ) / 64) ↔ ⌊x * 64⌋ = place := by
  rw [Set.mem_Ico, Int.floor_eq_iff, div_le_iff₀ (by norm_num), lt_div_iff₀ (by norm_num)]
  norm_num

/-- A tile is known by its column and its row. -/
theorem eq_of_cell_eq {tile tile' : Nat} (same : cell tile = cell tile') : tile = tile' := by
  obtain ⟨column, row⟩ := Prod.mk.inj same
  rw [← Nat.div_add_mod tile columns, ← Nat.div_add_mod tile' columns, column, row]

theorem cell_lt {tile : Nat} (inside : tile < capacity) :
    (cell tile).1 < columns ∧ (cell tile).2 < rows :=
  ⟨Nat.mod_lt _ (by decide), Nat.div_lt_of_lt_mul inside⟩

section OnTile

variable {atlas atlas' name name' : ResourceId} {number number' : UInt16} {point : ℚ × ℚ}

/-- A point belongs to a tile exactly if it has its column and its row. -/
theorem mem_area_onTile_iff (inside : number.toNat < capacity) :
    point ∈ (onTile atlas name number).area ↔
      ⌊point.1 * 64⌋ = (cell number.toNat).1 ∧ ⌊point.2 * 64⌋ = (cell number.toNat).2 := by
  obtain ⟨column, row⟩ := cell_lt inside
  obtain ⟨left, right⟩ := dyadic?_edges ⟨_, column⟩
  obtain ⟨top, bottom⟩ := dyadic?_edges ⟨_, row⟩
  have square : rows = columns := rfl
  rw [← mem_Ico_edges_iff, ← mem_Ico_edges_iff]
  simp only [area, onTile, square, left, right, top, bottom, Option.mem_some_iff,
    exists_eq_left', toRat_edge, Set.mem_ofPred_eq, Set.mem_prod]

/-- Different tiles have no point in common. -/
theorem area_onTile_inter (inside : number.toNat < capacity) (inside' : number'.toNat < capacity)
    (different : number.toNat ≠ number'.toNat) :
    (onTile atlas name number).area ∩ (onTile atlas' name' number').area = ∅ := by
  rw [Set.eq_empty_iff_forall_notMem]
  rintro point ⟨member, member'⟩
  rw [mem_area_onTile_iff inside] at member
  rw [mem_area_onTile_iff inside'] at member'
  have column := Int.ofNat_inj.mp (member.1.symm.trans member'.1)
  have row := Int.ofNat_inj.mp (member.2.symm.trans member'.2)
  exact different (eq_of_cell_eq (Prod.ext column row))

/-- A tile has points, its first corner for one, and all of them are inside the
atlas. -/
theorem area_onTile (inside : number.toNat < capacity) :
    (onTile atlas name number).area.Nonempty ∧
      (onTile atlas name number).area ⊆ Set.Ico 0 1 ×ˢ Set.Ico 0 1 := by
  constructor
  · refine ⟨((cell number.toNat).1 / 64, (cell number.toNat).2 / 64), ?_⟩
    rw [mem_area_onTile_iff inside]
    simp
  · intro point member
    rw [mem_area_onTile_iff inside, Int.floor_eq_iff, Int.floor_eq_iff] at member
    obtain ⟨⟨left, right⟩, top, bottom⟩ := member
    obtain ⟨column, row⟩ := cell_lt inside
    have first : (0 : ℚ) ≤ (cell number.toNat).1 ∧ (0 : ℚ) ≤ (cell number.toNat).2 :=
      ⟨Nat.cast_nonneg _, Nat.cast_nonneg _⟩
    have last : ((cell number.toNat).1 : ℚ) + 1 ≤ 64 ∧ ((cell number.toNat).2 : ℚ) + 1 ≤ 64 :=
      ⟨by exact_mod_cast column, by exact_mod_cast row⟩
    push_cast at left right top bottom
    rw [Set.mem_prod, Set.mem_Ico, Set.mem_Ico]
    exact ⟨⟨by linarith, by linarith⟩, by linarith, by linarith⟩

end OnTile

end Sprite

end PackModels
