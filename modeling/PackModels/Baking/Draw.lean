/-!
Contract: even numbers below a bound from a stream of random words.

The upper half of the product of a word and the bound is below the bound. Some
lower halves would make small numbers more frequent, so a word whose lower
half lies above the last whole multiple of the bound is passed over. A stream
that has run out goes on with zeros.
-/

namespace PackModels.Draw

/-- The number of zero bits before the first one. -/
def leadingZeros (bound : UInt64) : Nat :=
  if bound = 0 then 64 else 63 - bound.toNat.log2

/-- The greatest lower half that is accepted. -/
def zone (bound : UInt64) : UInt64 :=
  (bound <<< UInt64.ofNat (leadingZeros bound)) - 1

def wordCount : Nat :=
  18446744073709551616

/-- The upper and the lower half of a product. -/
def product (word bound : UInt64) : UInt64 × UInt64 :=
  let wide := word.toNat * bound.toNat
  (UInt64.ofNat (wide / wordCount), UInt64.ofNat (wide % wordCount))

def below (bound : UInt64) : List UInt64 → UInt64 × List UInt64
  | [] => (0, [])
  | word :: rest =>
      let halves := product word bound
      if halves.2 ≤ zone bound then (halves.1, rest) else below bound rest

end PackModels.Draw
