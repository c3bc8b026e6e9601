import PackModels.Decimal.Shortest

/-!
Contract: the written form of binary numbers.

Three forms are in use and each is one `Layout`: the text of a number in a
definition file, the text of a coordinate in an error message, and the text of
an angle in an error message. All three write the shortest digits; they differ
in which of two equally near decimals they take, in where positional notation
ends and in what follows a whole number.
-/

namespace PackModels.Decimal

/-- How the digits of a number are laid out. -/
structure Layout where
  /-- Which of two decimals that are as near is written. -/
  tie : Tie
  /-- The least power of ten of a leading digit that is written positionally. -/
  leastPositional : Option Int
  /-- The greatest power of ten of a leading digit that is written
  positionally. -/
  greatestPositional : Option Int
  /-- Whether a positional whole number ends in a point and a zero. -/
  pointZero : Bool
  /-- Whether a power of ten that is not negative has a plus sign. -/
  plusSign : Bool
deriving Repr

namespace Layout

/-- Numbers in definition files: positional from `1e-5` to below `1e16`. -/
def definitionNumber : Layout :=
  ⟨.even, some (-5), some 15, true, true⟩

/-- Coordinates in messages: positional from `0.0001` to below `1e16`. -/
def coordinate : Layout :=
  ⟨.up, some (-4), some 15, true, false⟩

/-- Angles in messages: always positional, whole numbers without a point. -/
def angle : Layout :=
  ⟨.up, none, none, false, false⟩

/-- Whether a number whose leading digit has some power of ten is written
positionally. -/
def positional (layout : Layout) (leading : Int) : Bool :=
  (match layout.leastPositional with
    | some least => decide (least ≤ leading)
    | none => true)
  && (match layout.greatestPositional with
    | some greatest => decide (leading ≤ greatest)
    | none => true)

def writePositional (layout : Layout) (decimal : Scaled) : String :=
  let digits := Nat.toDigits 10 decimal.digits
  let tail := if layout.pointZero then ".0" else ""
  if 0 ≤ decimal.exponent then
    String.ofList (digits ++ List.replicate decimal.exponent.toNat '0') ++ tail
  else
    let places := (-decimal.exponent).toNat
    if digits.length ≤ places then
      "0." ++ String.ofList (List.replicate (places - digits.length) '0' ++ digits)
    else
      String.ofList (digits.take (digits.length - places)) ++ "."
        ++ String.ofList (digits.drop (digits.length - places))

def writeScientific (layout : Layout) (decimal : Scaled) (leading : Int) : String :=
  let digits := Nat.toDigits 10 decimal.digits
  let mantissa :=
    if digits.length ≤ 1 then
      String.ofList digits
    else
      String.ofList (digits.take 1) ++ "." ++ String.ofList (digits.drop 1)
  let sign := if 0 ≤ leading then (if layout.plusSign then "+" else "") else "-"
  mantissa ++ "e" ++ sign ++ toString leading.natAbs

def writeDecimal (layout : Layout) (decimal : Scaled) : String :=
  let leading := decimal.exponent + (Nat.toDigits 10 decimal.digits).length - 1
  if layout.positional leading then
    layout.writePositional decimal
  else
    layout.writeScientific decimal leading

/-- The text of what a binary number stands for. -/
def write (layout : Layout) : Reading → String
  | .finite negative magnitude =>
      (if negative then "-" else "") ++ layout.writeDecimal (shortest layout.tie magnitude)
  | .zero negative =>
      (if negative then "-" else "") ++ (if layout.pointZero then "0.0" else "0")
  | .infinite negative => if negative then "-inf" else "inf"
  | .undefined => "NaN"

end Layout

end PackModels.Decimal
