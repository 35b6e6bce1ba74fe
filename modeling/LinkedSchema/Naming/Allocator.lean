import LinkedSchema.Json.NumberText
import LinkedSchema.Naming.SafeString
/-! Allocation of unique names. A name that is taken gets the smallest free numeral after it. -/
namespace LinkedSchema

/-- The names in use, the latest first. -/
abbrev UsedNames := List String

namespace UsedNames

/-- The base with the first free numeral from `k` on, among the next `fuel` ones. -/
def numbered (used : UsedNames) (base : String) : Nat → Nat → String
  | 0, k => base ++ intText k
  | fuel + 1, k =>
    if used.contains (base ++ intText k) then used.numbered base fuel (k + 1) else base ++ intText k

/-- The base itself if it is free. As many numerals as there are names cannot all be taken and
leave the next one taken too. -/
def fresh (used : UsedNames) (base : String) : String :=
  if used.contains base then used.numbered base used.length 1 else base

/-- The text that the names made from a source start with. -/
def base (source : String) : String :=
  let safe := safeString source
  if safe.isEmpty then "NoName" else safe

/-- Makes a name from a source and takes it. -/
def allocate (used : UsedNames) (source : String) : String × UsedNames :=
  let name := used.fresh (base source)
  (name, name :: used)

/-- Makes names from the sources one after the other. -/
def allocateAll (used : UsedNames) : List String → List String × UsedNames
  | [] => ([], used)
  | source :: rest =>
    let (name, used) := used.allocate source
    let (names, used) := allocateAll used rest
    (name :: names, used)

end UsedNames
end LinkedSchema
