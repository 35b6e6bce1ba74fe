import LinkedSchema.Decimal.Binary
import LinkedSchema.Json.Value
/-! Arithmetic on JSON numbers. Comparison is exact whatever the kinds of the two sides, and true
and false take part as one and zero. -/
namespace LinkedSchema

inductive Number where
  | int (n : Int)
  | float (x : Float)

namespace Number

/-- On which side of all finite numbers the number lies: below, among them or above. -/
def side : Number → Int
  | .int _ => 0
  | .float x => if x.isInf then (if x < 0.0 then -1 else 1) else 0

/-- The exact value of a finite number as a fraction with a positive denominator. -/
def fraction : Number → Int × Nat
  | .int n => (n, 1)
  | .float x => (Binary.ofFloat x).fraction

def less (a b : Number) : Bool :=
  if a.side = b.side then
    a.side = 0 && decide (a.fraction.1 * b.fraction.2 < b.fraction.1 * a.fraction.2)
  else a.side < b.side

def equal (a b : Number) : Bool :=
  if a.side = b.side then
    a.side ≠ 0 || a.fraction.1 * b.fraction.2 == b.fraction.1 * a.fraction.2
  else false

/-- The nearest floating-point number, unless the number is an integer beyond all of them. -/
def toFloat? : Number → Option Float
  | .int n =>
    let x := Float.ofInt n
    if x.isInf then none else some x
  | .float x => some x

/-- Two integers are subtracted exactly; with a floating-point number on either side the
difference is one too, and may lie beyond all finite numbers. -/
def sub? : Number → Number → Option Number
  | .int m, .int n => some (.int (m - n))
  | a, b => do
    let x ← a.toFloat?
    let y ← b.toFloat?
    some (.float (x - y))

end Number

namespace Json

/-- The value as a number, if it is a number or a boolean. -/
def number? : Json → Option Number
  | .bool b => some (.int (if b then 1 else 0))
  | .int n => some (.int n)
  | .float x => some (.float x)
  | _ => none

mutual

/-- Equality of content: numbers by value whatever their kind, objects whatever the order of their
entries. -/
def alike : Json → Json → Bool
  | .null, .null => true
  | .str s, .str t => s == t
  | .arr xs, .arr ys => alikeItems xs ys
  | .obj xs, .obj ys => xs.length == ys.length && alikeEntries xs ys
  | x, y =>
    match x.number?, y.number? with
    | some m, some n => m.equal n
    | _, _ => false

def alikeItems : List Json → List Json → Bool
  | [], [] => true
  | x :: xs, y :: ys => alike x y && alikeItems xs ys
  | _, _ => false

/-- Whether every entry of the first list has an entry of its name and content in the second. -/
def alikeEntries : List (String × Json) → List (String × Json) → Bool
  | [], _ => true
  | (name, x) :: xs, ys =>
    (match ys.lookup name with
      | some y => alike x y
      | none => false) && alikeEntries xs ys

end

end Json
end LinkedSchema
