import PackModels.Decimal.Layout

/-!
Contract: the numbers of definition files.

A number is kept as it is written, `Literal`, until a reader asks for its
value. A literal without fraction and exponent is a whole number where it fits
64 bits. Every other literal is a binary64 number: its leading digits, as many
as fit 64 bits, are rounded once and then multiplied or divided by a rounded
power of ten. A literal beyond binary64 has no value.
-/

namespace PackModels.Json

structure Literal where
  negative : Bool
  whole : List Nat
  /-- The digits after the point, if there is one. -/
  fraction : Option (List Nat)
  /-- The sign of the power of ten, `true` for a minus sign, and its digits. -/
  exponent : Option (Bool × List Nat)
deriving DecidableEq, Repr, Inhabited

inductive Number where
  /-- A whole number from zero on that fits 64 bits. -/
  | natural (value : Nat)
  /-- The negative of a positive whole number that fits 64 bits with its sign. -/
  | negative (magnitude : Nat)
  | binary64 (value : Float)

namespace Number

/-- The greatest number of 64 bits. -/
def limit64 : Nat :=
  18446744073709551615

/-- Reads digits after `value` while the result fits 64 bits; also the digits
that are left. -/
def takeDigits (value : Nat) : List Nat → Nat × List Nat
  | [] => (value, [])
  | digit :: rest =>
      if value * 10 + digit ≤ limit64 then
        takeDigits (value * 10 + digit) rest
      else
        (value, digit :: rest)

/-- A power of ten rounded to binary64. -/
def powerOfTen (exponent : Nat) : Float :=
  Float.ofScientific 1 false exponent

/-- Divides by powers of ten until the rest is in the range of binary64. Three
divisions by the greatest power leave nothing of any significand. -/
def scaleDown : Nat → Float → Nat → Float
  | 0, value, _ => value
  | steps + 1, value, exponent =>
      if exponent ≤ 308 then
        value / powerOfTen exponent
      else
        scaleDown steps (value / powerOfTen 308) (exponent - 308)

/-- The binary64 number of a significand and a power of ten, unless it is
beyond every such number. -/
def magnitude? (significand : Nat) (exponent : Int) : Option Float :=
  let value := Float.ofNat significand
  if 0 ≤ exponent then
    if significand = 0 then
      some value
    else if exponent ≤ 308 then
      let scaled := value * powerOfTen exponent.toNat
      if scaled.isInf then none else some scaled
    else
      none
  else
    some (scaleDown 4 value exponent.natAbs)

/-- A sign applied to a binary64 number. -/
def signed (negative : Bool) (value : Float) : Float :=
  if negative then -value else value

def ofDigits (digits : List Nat) : Nat :=
  digits.foldl (fun value digit => value * 10 + digit) 0

def exponentLimit : Int :=
  2147483647

/-- The value of a literal, unless it is beyond binary64. -/
def ofLiteral? (literal : Literal) : Option Number :=
  let leading := takeDigits 0 literal.whole
  let dropped : Int := leading.2.length
  match literal.fraction, literal.exponent, leading.2 with
  | none, none, [] =>
      if literal.negative then
        if leading.1 = 0 ∨ 9223372036854775808 < leading.1 then
          some (.binary64 (-Float.ofNat leading.1))
        else
          some (.negative leading.1)
      else
        some (.natural leading.1)
  | fraction, exponent, _ =>
      let places := fraction.getD []
      let all := takeDigits leading.1 places
      let point : Int := dropped - (places.length - all.2.length)
      match exponent with
      | none => (magnitude? all.1 point).map (fun x => .binary64 (signed literal.negative x))
      | some (down, digits) =>
          let power : Int := ofDigits digits
          if exponentLimit < power then
            if all.1 ≠ 0 ∧ !down then
              none
            else
              some (.binary64 (signed literal.negative 0))
          else
            (magnitude? all.1 (if down then point - power else point + power)).map
              (fun x => .binary64 (signed literal.negative x))

/-- The number rounded to binary32. -/
def toBinary32 : Number → Float32
  | natural value => Float32.ofNat value
  | negative magnitude => -Float32.ofNat magnitude
  | binary64 value => value.toFloat32

def text : Number → String
  | natural value => toString value
  | negative magnitude => "-" ++ toString magnitude
  | binary64 value => Decimal.Layout.definitionNumber.write (Decimal.readBinary64 value)

end Number

end PackModels.Json
