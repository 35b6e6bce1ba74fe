import LinkedSchema.Entries
import LinkedSchema.Fault
import LinkedSchema.Json.NumberText
import LinkedSchema.Types.Graph
/-! Export of type graphs. A type that has a name, or is referred to more than once, is written in
full in one place, and references stand for it everywhere else. -/
namespace LinkedSchema
namespace TypeGraph

/-- All types that can be reached from the pending ones, depth first. Every step meets a new type,
so as many steps as there are types are enough. The types met stand backwards. -/
def orderFrom (g : TypeGraph) : Nat → List TypeId → List TypeId → Except Fault (List TypeId)
  | 0, _, met => .ok met.reverse
  | fuel + 1, pending, met =>
    match pending.dropWhile met.contains with
    | [] => .ok met.reverse
    | t :: rest =>
      if (g.node t).kind.isNone then .error .unfilledType
      else g.orderFrom fuel ((g.node t).references ++ rest) (t :: met)

/-- All types that can be reached from a root. There is none if one of them is unfilled. -/
def order (g : TypeGraph) (root : TypeId) : Except Fault (List TypeId) :=
  g.orderFrom (g.size + 1) [root] []

/-- Every reference from one of the types, and one to the root. -/
def allReferences (g : TypeGraph) (root : TypeId) (order : List TypeId) : List TypeId :=
  root :: order.flatMap fun t => (g.node t).references

/-- The names that types are written under: their own, or a number if they are shared. -/
def labels (g : TypeGraph) (references : List TypeId) :
    Nat → List TypeId → List (TypeId × String)
  | _, [] => []
  | numbered, t :: rest =>
    match (g.node t).standaloneName with
    | some name => (t, name) :: g.labels references numbered rest
    | none =>
      if 1 < references.count t then
        (t, "#" ++ intText (numbered + 1)) :: g.labels references (numbered + 1) rest
      else g.labels references numbered rest

def partJson (ofType : TypeId → Json) : Part → Json
  | .type t => ofType t
  | .member m => .obj [
      ("key_name", .str m.key),
      ("ast", ofType m.type),
      ("is_required", .bool m.isRequired),
      ("is_pattern_property", .bool m.isPattern),
      ("is_unreachable_definition", .bool m.isUnreachable)]
  | .choice name t => .obj [("key_name", name), ("ast", ofType t)]
  | .value v => v

def paramsJson (ofType : TypeId → Json) : Params → Json
  | .one t => ofType t
  | .many parts => .arr (parts.map (partJson ofType))
  | .value v => v

/-- A field of a type, unless it is null. -/
def field (name : String) (v : Json) : Entries Json := if v.isNull then [] else [(name, v)]

def textField (name : String) (text : Option String) : Entries Json :=
  (text.map fun s => (name, .str s)).toList

/-- A type in full. The first argument writes the types that it refers to. -/
def fullJson (ofType : TypeId → Json) (n : TypeNode) : Json :=
  .obj (textField "tag" (n.kind.map Kind.name) ++
    textField "standalone_name" n.standaloneName ++
    textField "key_name" n.keyName ++
    field "comment" n.comment ++
    field "deprecated" n.deprecated ++
    field "params" (paramsJson ofType n.params) ++
    (if n.superTypes.isEmpty then [] else [("super_types", .arr (n.superTypes.map ofType))]) ++
    field "min_items" n.minItems ++
    field "max_items" n.maxItems ++
    (n.spread.map fun t => ("spread_param", ofType t)).toList)

/-- A reference to a type that is written elsewhere, or else the type in full. Types in full inside
one another are different ones, so their number bounds the depth. -/
def typeJson (g : TypeGraph) (labels : List (TypeId × String)) : Nat → TypeId → Json
  | 0, _ => .null
  | fuel + 1, t =>
    match labels.lookup t with
    | some label => .obj [("tag", .str "ref"), ("id", .str label)]
    | none => fullJson (g.typeJson labels fuel) (g.node t)

/-- The labelled types in full. Of two types with the same label the later one counts. -/
def labelledJson (ofType : TypeId → Json) (g : TypeGraph) (labels : List (TypeId × String)) :
    Entries Json :=
  Entries.merge [] (labels.map fun e => (e.2, fullJson ofType (g.node e.1)))

/-- The type graph below a root. -/
def toJson (g : TypeGraph) (root : TypeId) : Except Fault Json := do
  let order ← g.order root
  let labels := g.labels (g.allReferences root order) 0 order
  let ofType := g.typeJson labels (g.size + 1)
  return .obj [("root", ofType root), ("nodes", .obj (labelledJson ofType g labels))]

end TypeGraph
end LinkedSchema
