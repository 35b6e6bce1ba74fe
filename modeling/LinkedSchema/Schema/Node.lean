import LinkedSchema.Entries
import LinkedSchema.Json.Value
/-! Nodes of a linked schema graph. A node holds its keywords and the numbers of the nodes it
leads to, so that graphs may share nodes and have cycles. -/
namespace LinkedSchema

/-- The place of a node in its graph. -/
abbrev NodeId := Nat

/-- What stands where a schema is expected: a node, a boolean schema, or a bare value, which only
edits can put there. -/
inductive Subschema where
  | node (id : NodeId)
  | bool (b : Bool)
  | bare (v : Json)

namespace Subschema

def ofJson : Json → Subschema
  | .bool b => .bool b
  | v => .bare v

def node? : Subschema → Option NodeId
  | .node i => some i
  | _ => none

end Subschema

/-- Schemas of array elements: one for all, or one for each position. -/
inductive Items where
  | each (item : Subschema)
  | positions (items : List Subschema)

/-- What a schema extends. A null is kept apart from absence. -/
inductive Bases where
  | null
  | one (base : Subschema)
  | many (bases : List Subschema)

/-- One schema. A plain keyword that is absent is null; a constant and a default may be null and
present. -/
structure Node where
  type : Json := .null
  minItems : Json := .null
  maxItems : Json := .null
  required : Json := .null
  enum : Json := .null
  tsEnumNames : Json := .null
  tsType : Json := .null
  title : Json := .null
  id : Json := .null
  legacyId : Json := .null
  description : Json := .null
  deprecated : Json := .null
  ref : Json := .null
  const : Option Json := none
  default : Option Json := none
  additionalProperties : Option Subschema := none
  additionalItems : Option Subschema := none
  allOf : Option (List Subschema) := none
  anyOf : Option (List Subschema) := none
  oneOf : Option (List Subschema) := none
  properties : Option (Entries Subschema) := none
  patternProperties : Option (Entries Subschema) := none
  items : Option Items := none
  bases : Option Bases := none
  definitions : Option (Entries Subschema) := none
  parent : Option NodeId := none
  deriving Inhabited

namespace Node

/-- The plain keywords in the order of an export. -/
def plainKeywords (n : Node) : Entries Json :=
  [("type", n.type), ("minItems", n.minItems), ("maxItems", n.maxItems), ("required", n.required),
    ("enum", n.enum), ("tsEnumNames", n.tsEnumNames), ("tsType", n.tsType), ("title", n.title),
    ("$id", n.id), ("id", n.legacyId), ("description", n.description),
    ("deprecated", n.deprecated), ("$ref", n.ref)]

/-- Whether a constant or default is absent or null. -/
def lacksValue : Option Json → Bool
  | none => true
  | some v => v.isNull

def lacksBases : Option Bases → Bool
  | none | some .null => true
  | _ => false

/-- Whether no keyword at all is set. A null counts as not set, whatever the keyword. -/
def isEmpty (n : Node) : Bool :=
  n.plainKeywords.all (·.2.isNull) && lacksValue n.const && lacksValue n.default &&
    n.additionalProperties.isNone && n.additionalItems.isNone && n.allOf.isNone &&
    n.anyOf.isNone && n.oneOf.isNone && n.properties.isNone && n.patternProperties.isNone &&
    n.items.isNone && lacksBases n.bases && n.definitions.isNone

/-- Whether the name is the declared type, or one of the declared types. -/
def hasType (n : Node) (name : String) : Bool :=
  match n.type with
  | .arr types => types.any (·.isStr name)
  | type => type.isStr name

/-- Whether the node describes objects: it declares properties, or type `object` or `any`. -/
def isObjectLike (n : Node) : Bool :=
  n.properties.isSome || n.hasType "object" || n.hasType "any"

/-- Whether the node describes arrays: it declares items, or type `array` or `any`. -/
def isArrayLike (n : Node) : Bool :=
  n.items.isSome || n.hasType "array" || n.hasType "any"

end Node
end LinkedSchema
