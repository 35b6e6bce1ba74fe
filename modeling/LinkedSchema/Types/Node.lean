import LinkedSchema.Json.Value
/-! Nodes of a type graph. A type may have a name to be declared under, and refers to other types
by number, so that graphs may share types and have cycles. -/
namespace LinkedSchema

/-- The place of a type in its graph. -/
abbrev TypeId := Nat

inductive Kind where
  | any
  | array
  | boolean
  | customType
  | enum
  | interface
  | intersection
  | literal
  | never
  | null
  | number
  | object
  | string
  | tuple
  | union
  deriving DecidableEq

namespace Kind

def name : Kind → String
  | .any => "ANY"
  | .array => "ARRAY"
  | .boolean => "BOOLEAN"
  | .customType => "CUSTOM_TYPE"
  | .enum => "ENUM"
  | .interface => "INTERFACE"
  | .intersection => "INTERSECTION"
  | .literal => "LITERAL"
  | .never => "NEVER"
  | .null => "NULL"
  | .number => "NUMBER"
  | .object => "OBJECT"
  | .string => "STRING"
  | .tuple => "TUPLE"
  | .union => "UNION"

def all : List Kind :=
  [.any, .array, .boolean, .customType, .enum, .interface, .intersection, .literal, .never, .null,
    .number, .object, .string, .tuple, .union]

def ofName? (text : String) : Option Kind := all.find? (·.name == text)

end Kind

/-- A member of an interface. -/
structure Member (α : Type := TypeId) where
  key : String
  type : α
  isRequired : Bool
  isPattern : Bool := false
  isUnreachable : Bool := false

/-- A part of a type: a type, a member of an interface, a named choice of an enumeration, or a
bare value. The types are numbers, or whatever else stands for types. -/
inductive Part (α : Type := TypeId) where
  | type (t : α)
  | member (m : Member α)
  | choice (name : Json) (t : α)
  | value (v : Json)

/-- What a type is made of. Unions, intersections and tuples are made of types, an array of its
element type, an interface of members, an enumeration of choices, and a literal or a custom type
of a value. A null stands for nothing. -/
inductive Params (α : Type := TypeId) where
  | one (t : α)
  | many (parts : List (Part α))
  | value (v : Json)

/-- One type. A type without a kind is unfilled: it has its place in the graph, but its contents
are still to be computed. -/
structure TypeNode where
  kind : Option Kind := none
  params : Params := .value .null
  keyName : Option String := none
  standaloneName : Option String := none
  comment : Json := .null
  deprecated : Json := .null
  superTypes : List TypeId := []
  minItems : Json := .null
  maxItems : Json := .null
  spread : Option TypeId := none

/-- The name of members that stand for all names not listed. -/
def indexKey : String := "[k: string]"

end LinkedSchema
