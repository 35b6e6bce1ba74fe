import LinkedSchema.Schema.Graph
/-! Export of a node, with all it leads to, as one JSON document. -/
namespace LinkedSchema

/-- What stands for a node inside its own export. -/
def cycleMark : Json := .obj [("$ref", .str "#cycle")]

/-- The exports take the one of a node as an argument. -/
def Subschema.toJson (ofNode : NodeId → Json) : Subschema → Json
  | .node i => ofNode i
  | .bool b => .bool b
  | .bare v => v

def Items.toJson (ofNode : NodeId → Json) : Items → Json
  | .each item => item.toJson ofNode
  | .positions items => .arr (items.map (·.toJson ofNode))

def Bases.toJson (ofNode : NodeId → Json) : Bases → Json
  | .null => .null
  | .one base => base.toJson ofNode
  | .many bases => .arr (bases.map (·.toJson ofNode))

namespace Node

def listJson (ofNode : NodeId → Json) (members : List Subschema) : Json :=
  .arr (members.map (·.toJson ofNode))

def mapJson (ofNode : NodeId → Json) (entries : Entries Subschema) : Json :=
  .obj (entries.map fun e => (e.1, e.2.toJson ofNode))

/-- The entry of a keyword, if the keyword is set. -/
def entry {α : Type} (name : String) (write : α → Json) (value : Option α) : Entries Json :=
  (value.map fun v => (name, write v)).toList

/-- The keywords that are set, in the order of an export. A null is not set, but for what the node
extends. -/
def keywords (ofNode : NodeId → Json) (n : Node) : Entries Json :=
  n.plainKeywords.filter (!·.2.isNull) ++
    entry "const" (fun v => v) (n.const.filter (!·.isNull)) ++
    entry "default" (fun v => v) (n.default.filter (!·.isNull)) ++
    entry "additionalProperties" (·.toJson ofNode) n.additionalProperties ++
    entry "additionalItems" (·.toJson ofNode) n.additionalItems ++
    entry "allOf" (listJson ofNode) n.allOf ++
    entry "anyOf" (listJson ofNode) n.anyOf ++
    entry "oneOf" (listJson ofNode) n.oneOf ++
    entry "properties" (mapJson ofNode) n.properties ++
    entry "patternProperties" (mapJson ofNode) n.patternProperties ++
    entry "items" (·.toJson ofNode) n.items ++
    entry "extends" (·.toJson ofNode) n.bases ++
    entry "definitions" (mapJson ofNode) n.definitions

end Node

namespace Graph

/-- The export of a node below a path of nodes. The nodes off the path bound the depth. -/
def exportBelow (g : Graph) : Nat → List NodeId → NodeId → Json
  | 0, _, _ => cycleMark
  | fuel + 1, path, i =>
    if path.contains i then cycleMark
    else .obj ((g.node i).keywords (g.exportBelow fuel (i :: path)))

/-- A node that lies on the way from the root to itself is written as the cycle mark. -/
def toJson (g : Graph) (i : NodeId) : Json := g.exportBelow g.size [] i

end Graph
end LinkedSchema
