import LinkedSchema.Decimal.Shortest
/-! How numbers are written. A floating-point number has the fewest digits that read back as it,
and always a point or an exponent, so that it is told from an integer. -/
namespace LinkedSchema

/-- Where a decimal is written without an exponent: the first digit stands at least at
`10 ^ lowest` and below `10 ^ limit`. Exponents have a sign and at least `exponentDigits` digits. -/
structure DecimalFormat where
  lowest : Int
  limit : Int
  exponentDigits : Nat

/-- Numbers from `10 ^ -4` up to `10 ^ 16` are written out, all others with an exponent. -/
def DecimalFormat.json : DecimalFormat := ⟨-4, 16, 2⟩

def zeros (n : Nat) : String := .ofList (List.replicate n '0')

/-- The digits with a point, and without an exponent. -/
def Decimal.positional (d : Decimal) : String :=
  let digits := Nat.toDigits 10 d.digits
  if 0 ≤ d.exponent then .ofList digits ++ zeros d.exponent.toNat ++ ".0"
  else if 0 ≤ d.leading then
    let whole := d.leading.toNat + 1
    .ofList (digits.take whole) ++ "." ++ .ofList (digits.drop whole)
  else "0." ++ zeros (-d.leading - 1).toNat ++ .ofList digits

/-- The digits with a point after the first, and an exponent. -/
def Decimal.scientific (exponentDigits : Nat) (d : Decimal) : String :=
  let digits := Nat.toDigits 10 d.digits
  let size := Nat.toDigits 10 d.leading.natAbs
  .ofList (digits.take 1) ++ (if digits.length = 1 then "" else "." ++ .ofList (digits.drop 1)) ++
    (if d.leading < 0 then "e-" else "e+") ++ zeros (exponentDigits - size.length) ++ .ofList size

def DecimalFormat.text (format : DecimalFormat) (d : Decimal) : String :=
  if format.lowest ≤ d.leading ∧ d.leading < format.limit then d.positional
  else d.scientific format.exponentDigits

def floatText (x : Float) : String :=
  let b := Binary.ofFloat x
  (if b.negative then "-" else "") ++ DecimalFormat.json.text (Decimal.shortest b)

def intText (n : Int) : String :=
  (if n < 0 then "-" else "") ++ .ofList (Nat.toDigits 10 n.natAbs)

end LinkedSchema
