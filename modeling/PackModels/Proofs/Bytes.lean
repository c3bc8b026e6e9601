import Mathlib.Data.List.Basic
import Mathlib.Tactic.SplitIfs
import PackModels.Text

/-!
Contract: texts are in the order of their bytes.

Texts are compared character by character. The bytes of a character begin with
the greater one the longer they are, and within one length they are the digits
of the character, so the first character that differs decides about the bytes
as well.

Owns: `bytes`, the bytes of a text.
-/

namespace PackModels.Text

/-- The bytes of a text. -/
def bytes (text : String) : List UInt8 :=
  text.toUTF8.data.toList

theorem bytes_eq (text : String) : bytes text = text.toList.flatMap String.utf8EncodeChar := by
  rw [bytes, String.toUTF8_eq_toByteArray, ← String.utf8Encode_toList, List.utf8Encode,
    List.toList_data_toByteArray]

theorem cons_ofNat_lt_iff {m n : Nat} {rest rest' : List UInt8} :
    UInt8.ofNat m :: rest < UInt8.ofNat n :: rest' ↔
      m % 256 < n % 256 ∨ m % 256 = n % 256 ∧ rest < rest' := by
  rw [List.cons_lt_cons_iff, UInt8.lt_iff_toNat_lt, ← UInt8.toNat_inj, UInt8.toNat_ofNat',
    UInt8.toNat_ofNat']

/-- The bytes of a character are in front of those of a greater one, whatever
follows them. -/
theorem encode_append_lt {left right : Char} (less : left < right) (rest rest' : List UInt8) :
    String.utf8EncodeChar left ++ rest < String.utf8EncodeChar right ++ rest' := by
  have before : left.val.toNat < right.val.toNat := UInt32.lt_iff_toNat_lt.mp (Char.lt_def.mp less)
  have small : right.val.toNat < 0x110000 := by
    have valid := right.valid
    unfold UInt32.isValidChar Nat.isValidChar at valid
    omega
  unfold String.utf8EncodeChar
  generalize left.val.toNat = v at *
  generalize right.val.toNat = w at *
  dsimp only
  split_ifs
  -- A longer encoding starts with a greater byte; in one of the same length the
  -- bytes are digits.
  all_goals
    simp (disch := omega) only [List.cons_append, List.nil_append, cons_ofNat_lt_iff,
      Nat.mod_eq_of_lt]
    generalize (rest < rest') = later
    omega

theorem flatMap_encode_lt {left right : List Char} (less : left < right) :
    left.flatMap String.utf8EncodeChar < right.flatMap String.utf8EncodeChar := by
  induction left generalizing right with
  | nil =>
      cases right with
      | nil => exact absurd less (List.lt_irrefl [])
      | cons head tail =>
          rw [List.flatMap_nil, List.flatMap_cons]
          cases encoded : String.utf8EncodeChar head with
          | nil => exact absurd encoded String.utf8EncodeChar_ne_nil
          | cons first rest => exact List.nil_lt_cons _ _
  | cons head tail inductionHypothesis =>
      cases right with
      | nil => exact absurd less (List.not_lt_nil _)
      | cons head' tail' =>
          rw [List.flatMap_cons, List.flatMap_cons]
          rcases List.cons_lt_cons_iff.mp less with before | ⟨rfl, later⟩
          · exact encode_append_lt before _ _
          · exact List.append_left_lt (inductionHypothesis later)

/-- The order of texts is the order of their bytes. -/
theorem bytes_lt_iff {left right : String} : bytes left < bytes right ↔ left < right := by
  rw [bytes_eq, bytes_eq]
  constructor
  · intro less
    by_contra notLess
    rcases List.le_iff_lt_or_eq.mp (String.not_lt.mp notLess) with before | same
    · exact List.lt_asymm less (flatMap_encode_lt before)
    · rw [same] at less
      exact List.lt_irrefl _ less
  · exact flatMap_encode_lt

/-- Texts are compared by their bytes. -/
theorem compare_eq_lt_iff {left right : String} :
    compare left right = .lt ↔ bytes left < bytes right :=
  compareOfLessAndEq_eq_lt.trans bytes_lt_iff.symm

end PackModels.Text
