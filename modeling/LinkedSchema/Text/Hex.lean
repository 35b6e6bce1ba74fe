/-! Hexadecimal escapes. -/
namespace LinkedSchema

/-- The lower-case hexadecimal digits of a number, filled up with zeros to a width. -/
def hexText (width n : Nat) : String :=
  let digits := Nat.toDigits 16 n
  .ofList (List.replicate (width - digits.length) '0' ++ digits)

end LinkedSchema
