import LinkedSchema.Decimal.Binary
/-! The shortest decimal that reads back as a given double. A double stands for the interval of
reals that round to it. On the grid of decimals with one digit, then two, and so on, the two
neighbours of the double are tested; the first grid with a hit wins, and of two hits the nearer. -/
namespace LinkedSchema

/-- The number `digits * 10 ^ exponent`. -/
structure Decimal where
  digits : Nat
  exponent : Int
  deriving DecidableEq

/-- How many digits the number is written with; zero takes one. -/
def digitCount (n : Nat) : Nat := (Nat.toDigits 10 n).length

namespace Decimal

/-- A positive number with the ends of the interval that rounds to it, over one denominator. The
ends belong to the interval if the mantissa is even. -/
structure Target where
  low : Nat
  value : Nat
  high : Nat
  denominator : Nat
  closed : Bool

/-- The interval of a double: half a unit of its last bit to either side, and a quarter below a
power of two, where the spacing changes. -/
def Target.ofBinary (b : Binary) : Target :=
  let gap := if b.mantissa = Nat.pow 2 52 ∧ b.exponent ≠ -1074 then 1 else 2
  let scale := b.exponent - 2
  let up := Nat.pow 2 scale.toNat
  { low := (4 * b.mantissa - gap) * up
    value := 4 * b.mantissa * up
    high := (4 * b.mantissa + 2) * up
    denominator := Nat.pow 2 (-scale).toNat
    closed := b.mantissa % 2 = 0 }

/-- The exponent `k` with `10 ^ k ≤ value / denominator < 10 ^ (k + 1)`. -/
def Target.magnitude (t : Target) : Int :=
  if t.denominator ≤ t.value then (digitCount (t.value / t.denominator) : Int) - 1
  else -(digitCount ((t.denominator - 1) / t.value) : Int)

/-- Whether `n * up / down` lies in the interval. -/
def Target.covers (t : Target) (n up down : Nat) : Bool :=
  let point := n * up * t.denominator
  if t.closed then t.low * down ≤ point && point ≤ t.high * down
  else t.low * down < point && point < t.high * down

/-- The better of the two neighbours of the value on the grid of multiples of `10 ^ exponent`, if
one lies in the interval. A tie goes to the even digit. -/
def Target.onGrid? (t : Target) (exponent : Int) : Option Nat :=
  let up := Nat.pow 10 exponent.toNat
  let down := Nat.pow 10 (-exponent).toNat
  let below := t.value * down / (t.denominator * up)
  let remainder := t.value * down % (t.denominator * up)
  match t.covers below up down, t.covers (below + 1) up down with
  | true, true =>
    if 2 * remainder < t.denominator * up then some below
    else if t.denominator * up < 2 * remainder then some (below + 1)
    else some (below + below % 2)
  | true, false => some below
  | false, true => some (below + 1)
  | false, false => none

/-- Tries the grids with one digit more each time. -/
def Target.search (t : Target) : Nat → Int → Decimal
  | 0, exponent =>
    ⟨t.value * Nat.pow 10 (-exponent).toNat / (t.denominator * Nat.pow 10 exponent.toNat), exponent⟩
  | grids + 1, exponent =>
    match t.onGrid? exponent with
    | some digits => ⟨digits, exponent⟩
    | none => t.search grids (exponent - 1)

/-- Moves trailing zeros into the exponent. -/
def trim : Nat → Decimal → Decimal
  | 0, d => d
  | fuel + 1, d =>
    if d.digits ≠ 0 ∧ d.digits % 10 = 0 then trim fuel ⟨d.digits / 10, d.exponent + 1⟩ else d

/-- The shortest decimal that reads back as the double, its sign left out. Seventeen digits are
always enough. -/
def shortest (b : Binary) : Decimal :=
  if b.mantissa = 0 then ⟨0, 0⟩
  else
    let t := Target.ofBinary b
    trim 18 (t.search 17 t.magnitude)

/-- The exponent of the first digit. -/
def leading (d : Decimal) : Int := digitCount d.digits + d.exponent - 1

end Decimal
end LinkedSchema
