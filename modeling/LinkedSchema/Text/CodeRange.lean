/-! Sets of characters given as ranges of code points. -/
namespace LinkedSchema

/-- The code points from the first to the second, both included. -/
abbrev CodeRange := Nat × Nat

namespace CodeRange

def holds (r : CodeRange) (c : Char) : Bool := r.1 ≤ c.toNat && c.toNat ≤ r.2

def anyHolds (ranges : List CodeRange) (c : Char) : Bool := ranges.any (holds · c)

end CodeRange
end LinkedSchema
