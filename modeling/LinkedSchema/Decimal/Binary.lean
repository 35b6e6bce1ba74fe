/-! The exact value of a double: a sign, a mantissa and a power of two. -/
namespace LinkedSchema

/-- The number `mantissa * 2 ^ exponent`, below zero if `negative`. -/
structure Binary where
  negative : Bool
  mantissa : Nat
  exponent : Int
  deriving DecidableEq

namespace Binary

/-- Reads the sign, the eleven exponent bits and the 52 fraction bits of a double. -/
def ofBits (bits : Nat) : Binary :=
  let fraction : Nat := bits % Nat.pow 2 52
  let scale : Nat := bits / Nat.pow 2 52 % Nat.pow 2 11
  { negative := bits / Nat.pow 2 63 % 2 = 1
    mantissa := if scale = 0 then fraction else Nat.pow 2 52 + fraction
    exponent := if scale = 0 then -1074 else (scale : Int) - 1075 }

def ofFloat (x : Float) : Binary := ofBits x.toBits.toNat

/-- The mantissa with the sign of the number. -/
def signed (b : Binary) : Int := if b.negative then -(b.mantissa : Int) else b.mantissa

/-- The number as a fraction whose denominator is a power of two. -/
def fraction (b : Binary) : Int × Nat :=
  if 0 ≤ b.exponent then (b.signed * Int.pow 2 b.exponent.toNat, 1)
  else (b.signed, Nat.pow 2 (-b.exponent).toNat)

end Binary
end LinkedSchema
