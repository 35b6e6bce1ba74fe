import LinkedSchema.Entries
import LinkedSchema.Json.Value
/-! Schema documents with shared parts. An object with the one entry `$link` stands for the shared
part of that name, so a document may share objects and lead back to them. -/
namespace LinkedSchema

structure Document where
  root : Json
  parts : Entries Json := []

/-- The name of the part that the value is a link to. -/
def Json.link? : Json → Option String
  | .obj [("$link", .str name)] => some name
  | _ => none

namespace Json

mutual

/-- The number of values in a value, itself included. -/
def weight : Json → Nat
  | .arr items => 1 + itemsWeight items
  | .obj entries => 1 + entriesWeight entries
  | _ => 1

def itemsWeight : List Json → Nat
  | [] => 0
  | v :: rest => v.weight + itemsWeight rest

def entriesWeight : List (String × Json) → Nat
  | [] => 0
  | (_, v) :: rest => v.weight + entriesWeight rest

end

end Json

namespace Document

/-- The number of values in the root and all parts. -/
def weight (d : Document) : Nat := d.root.weight + Json.entriesWeight d.parts

/-- The object that a link stands for, with the name of the part that holds it. A part may be a
link to another one. -/
def target? (d : Document) : Nat → String → Option (String × Entries Json)
  | 0, _ => none
  | fuel + 1, name =>
    match d.parts.lookup name with
    | some (.obj entries) =>
      match (Json.obj entries).link? with
      | some next => d.target? fuel next
      | none => some (name, entries)
    | _ => none

end Document
end LinkedSchema
