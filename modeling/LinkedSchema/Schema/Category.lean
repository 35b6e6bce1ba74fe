import LinkedSchema.Schema.Node
/-! Structural categories of schema nodes. -/
namespace LinkedSchema

inductive Category where
  | allOf
  | any
  | anyOf
  | boolean
  | customType
  | namedEnum
  | namedSchema
  | null
  | number
  | object
  | oneOf
  | reference
  | string
  | typedArray
  | union
  | unnamedEnum
  | unnamedSchema
  | untypedArray
  deriving DecidableEq

namespace Category

def name : Category → String
  | .allOf => "ALL_OF"
  | .any => "ANY"
  | .anyOf => "ANY_OF"
  | .boolean => "BOOLEAN"
  | .customType => "CUSTOM_TYPE"
  | .namedEnum => "NAMED_ENUM"
  | .namedSchema => "NAMED_SCHEMA"
  | .null => "NULL"
  | .number => "NUMBER"
  | .object => "OBJECT"
  | .oneOf => "ONE_OF"
  | .reference => "REFERENCE"
  | .string => "STRING"
  | .typedArray => "TYPED_ARRAY"
  | .union => "UNION"
  | .unnamedEnum => "UNNAMED_ENUM"
  | .unnamedSchema => "UNNAMED_SCHEMA"
  | .untypedArray => "UNTYPED_ARRAY"

end Category

namespace Node

/-- A union in disguise: several types, or alternatives. -/
def isCompound (n : Node) : Bool := n.type.isArr || n.anyOf.isSome || n.oneOf.isSome

/-- Whether the default is there and meets a test. -/
def defaultMeets (n : Node) (test : Json → Bool) : Bool := (n.default.map test).getD false

/-- Whether the node is a scalar: of a type of that name, or, if it is no union, with a default of
that kind. An enumeration is none. -/
def isScalar (n : Node) (types : List String) (kind : Json → Bool) : Bool :=
  n.enum.isNull && (types.any n.type.isStr || (!n.isCompound && n.defaultMeets kind))

/-- Type `object` and nothing that says which objects. -/
def isPlainObject (n : Node) : Bool :=
  n.type.isStr "object" && ((n.additionalProperties.bind Subschema.node?).isNone) &&
    n.allOf.isNone && n.anyOf.isNone && n.oneOf.isNone && n.patternProperties.isNone &&
    n.properties.isNone && n.required.isNull

/-- The types whose values an enumeration may list. -/
def enumTypes : List String := ["boolean", "integer", "number", "string"]

def isUnnamedEnum (n : Node) : Bool :=
  n.tsEnumNames.isNull && (n.type.isNull || enumTypes.any n.type.isStr) && !n.enum.isNull

end Node

namespace Category

/-- The rule for a node to be of a category, for the categories that have one. -/
def holds (n : Node) : Category → Bool
  | .allOf => n.allOf.isSome
  | .any => n.isEmpty || n.type.isStr "any"
  | .anyOf => n.anyOf.isSome
  | .boolean => n.isScalar ["boolean"] Json.isBool
  | .customType => n.tsType.truthy
  | .namedEnum => !n.enum.isNull && !n.tsEnumNames.isNull
  | .namedSchema => !n.id.isNull && (n.patternProperties.isSome || n.properties.isSome)
  | .null => n.type.isStr "null"
  | .number => n.isScalar ["integer", "number"] Json.isNumber
  | .object => n.isPlainObject
  | .oneOf => n.oneOf.isSome
  | .reference => !n.ref.isNull
  | .string => n.isScalar ["string"] Json.isText
  | .typedArray => (n.type.isNull || n.type.isStr "array") && n.items.isSome
  | .union => n.type.isArr
  | .unnamedEnum => n.isUnnamedEnum
  | .unnamedSchema => false
  | .untypedArray => n.type.isStr "array" && n.items.isNone

/-- The categories that combine with one another, in order. -/
def combining : List Category :=
  [.allOf, .any, .anyOf, .boolean, .namedEnum, .namedSchema, .null, .number, .object, .oneOf,
    .reference, .string, .typedArray, .union, .unnamedEnum, .untypedArray]

end Category

/-- All categories of a node. A custom type supersedes everything else, and a node that no rule
fits is an unnamed record. A node of several categories combines several shapes. -/
def Node.categories (n : Node) : List Category :=
  if n.tsType.truthy then [.customType]
  else
    match Category.combining.filter (Category.holds n ·) with
    | [] => [.unnamedSchema]
    | found => found

end LinkedSchema
