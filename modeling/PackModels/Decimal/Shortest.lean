/-!
Contract: the shortest decimal that names a binary number.

A positive binary number is a significand times a power of two. It stands for
every real that rounds to it, an interval around it that ends half-way to its
neighbours and holds its ends when the significand is even. `shortest` finds
the fewest digits of a decimal inside that interval, and of two such decimals
the nearer; where both are as near, a `Tie` says which one it is. All arithmetic
is on natural numbers and exact.
-/

namespace PackModels.Decimal

/-- A number written as a sign, decimal digits and a power of ten. -/
structure Scaled where
  digits : Nat
  exponent : Int
deriving DecidableEq, Repr

/-- Which of two decimals that are as near names a number. -/
inductive Tie where
  /-- The greater one. -/
  | up
  /-- The one whose last digit is even. -/
  | even
deriving DecidableEq, Repr

namespace Tie

/-- Whether of the digits `below` and the next greater ones it is `below`. -/
def takesBelow (tie : Tie) (below : Nat) : Bool :=
  match tie with
  | up => false
  | even => below % 2 == 0

end Tie

/-- A positive number `significand * 2 ^ exponent` of a binary format. -/
structure Binary where
  significand : Nat
  exponent : Int
  /-- Whether the neighbour below is only half as far as the one above. -/
  closeBelow : Bool
deriving DecidableEq, Repr

namespace Binary

def digitCount (n : Nat) : Nat :=
  (Nat.toDigits 10 n).length

/-- One quarter of the unit of the significand, as numerator and denominator. -/
def quarter (value : Binary) : Nat × Nat :=
  let power := value.exponent - 2
  (Nat.pow 2 power.toNat, Nat.pow 2 (-power).toNat)

def decimalExponent (value : Binary) : Int :=
  let unit := value.quarter
  let numerator := 4 * value.significand * unit.1
  if unit.2 ≤ numerator then
    (digitCount (numerator / unit.2) : Int) - 1
  else
    -(digitCount ((unit.2 - 1) / numerator) : Int)

/-- The decimal with `exponent` as its power of ten that names `value`, if
there is one: of the two decimals around the value, the nearer of those that
round to it. -/
def atExponent? (tie : Tie) (value : Binary) (exponent : Int) : Option Scaled :=
  let unit := value.quarter
  let decimalUnit := Nat.pow 10 exponent.toNat * unit.2
  let binaryUnit := Nat.pow 10 (-exponent).toNat * unit.1
  let centre := 4 * value.significand * binaryUnit
  let high := (4 * value.significand + 2) * binaryUnit
  let low := (4 * value.significand - (if value.closeBelow then 1 else 2)) * binaryUnit
  let named (digits : Nat) : Bool :=
    let point := digits * decimalUnit
    if value.significand % 2 = 0 then
      decide (low ≤ point) && decide (point ≤ high)
    else
      decide (low < point) && decide (point < high)
  let below := centre / decimalUnit
  let above := below + 1
  let toBelow := centre - below * decimalUnit
  let toAbove := above * decimalUnit - centre
  let takesBelow :=
    decide (toBelow < toAbove) || (toBelow == toAbove && tie.takesBelow below)
  if named below && (takesBelow || !named above) then
    some ⟨below, exponent⟩
  else if named above then
    some ⟨above, exponent⟩
  else
    none

/-- Searches from `exponent` downwards through a number of powers of ten. -/
def search (tie : Tie) (value : Binary) : Nat → Int → Scaled
  | 0, exponent => ⟨value.significand, exponent⟩
  | steps + 1, exponent =>
      match value.atExponent? tie exponent with
      | some decimal => decimal
      | none => search tie value steps (exponent - 1)

end Binary

/-- Moves the zeros at the end of the digits into the power of ten. -/
def trim : Nat → Scaled → Scaled
  | 0, decimal => decimal
  | steps + 1, decimal =>
      if decimal.digits ≠ 0 ∧ decimal.digits % 10 = 0 then
        trim steps ⟨decimal.digits / 10, decimal.exponent + 1⟩
      else
        decimal

/-- The shortest decimal that names a positive binary number. Seventeen digits
name every number of the formats in use. -/
def shortest (tie : Tie) (value : Binary) : Scaled :=
  trim 17 (value.search tie 18 value.decimalExponent)

/-- What a pattern of bits of a binary format stands for. -/
inductive Reading where
  | finite (negative : Bool) (magnitude : Binary)
  | zero (negative : Bool)
  | infinite (negative : Bool)
  | undefined
deriving DecidableEq, Repr

/-- Reads the bits of a binary format with the given widths of its fraction
and exponent fields. -/
def readBits (fractionWidth exponentWidth : Nat) (bits : Nat) : Reading :=
  let unit := Nat.pow 2 fractionWidth
  let fraction := bits % unit
  let biased := bits / unit % Nat.pow 2 exponentWidth
  let negative := decide (bits / (unit * Nat.pow 2 exponentWidth) % 2 = 1)
  let least : Int := 2 - Int.ofNat (Nat.pow 2 (exponentWidth - 1)) - Int.ofNat fractionWidth
  if biased = Nat.pow 2 exponentWidth - 1 then
    if fraction = 0 then .infinite negative else .undefined
  else if biased = 0 then
    if fraction = 0 then .zero negative else .finite negative ⟨fraction, least, false⟩
  else
    .finite negative
      ⟨fraction + unit, least + biased - 1, decide (fraction = 0 ∧ 1 < biased)⟩

/-- What a binary32 number stands for. -/
def readBinary32 (x : Float32) : Reading :=
  readBits 23 8 x.toBits.toNat

/-- What a binary64 number stands for. -/
def readBinary64 (x : Float) : Reading :=
  readBits 52 11 x.toBits.toNat

end PackModels.Decimal
