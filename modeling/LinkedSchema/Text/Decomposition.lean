import LinkedSchema.Text.Decomposition.Table
/-! Compatibility decomposition of characters: accents apart from their letters, ligatures and
styled letters as plain ones. -/
namespace LinkedSchema
namespace Decomposition

/-- Characters that decompose alike: `first` into `image`, and each of the `more` characters after
it into the successor of what the one before it decomposes into. -/
structure Run where
  first : Nat
  more : Nat
  image : List Nat

def hexDigit (c : Char) : Nat := if c.isDigit then c.toNat - 48 else c.toNat - 55

def hexNumber (digits : String) : Nat := digits.toList.foldl (fun n c => 16 * n + hexDigit c) 0

/-- Reads one entry of the table. -/
def Run.ofEntry (entry : String) : Run :=
  match entry.splitOn ":" with
  | [place, image] =>
    match place.splitOn "+" with
    | [first, more] =>
      ⟨hexNumber first, more.toNat?.getD 0, (image.splitOn " ").map hexNumber⟩
    | _ => ⟨hexNumber place, 0, (image.splitOn " ").map hexNumber⟩
  | _ => ⟨0, 0, []⟩

def Run.holds (r : Run) (c : Char) : Bool := r.first ≤ c.toNat && c.toNat ≤ r.first + r.more

def Run.apply (r : Run) (c : Char) : List Char :=
  r.image.map fun code => .ofNat (code + (c.toNat - r.first))

def runs : List Run := (table.flatMap (·.splitOn ";")).map Run.ofEntry

/-- A Hangul syllable is composed of a leading consonant, a vowel and perhaps a trailing
consonant. The argument is the number of the syllable. -/
def jamo (syllable : Nat) : List Char :=
  let trailing := syllable % 28
  [.ofNat (0x1100 + syllable / 588), .ofNat (0x1161 + syllable % 588 / 28)] ++
    (if trailing = 0 then [] else [.ofNat (0x11A7 + trailing)])

/-- What the character decomposes into in the end. Marks stand in the order of the table. -/
def ofChar (c : Char) : List Char :=
  if c.toNat < 0xA0 then [c]
  else if 0xAC00 ≤ c.toNat ∧ c.toNat ≤ 0xD7A3 then jamo (c.toNat - 0xAC00)
  else match runs.find? (·.holds c) with
    | some r => r.apply c
    | none => [c]

end Decomposition
end LinkedSchema
