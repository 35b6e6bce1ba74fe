import LinkedSchema.Json.Display
import LinkedSchema.Schema.Node
import LinkedSchema.Schema.Refusal
/-! All that can go wrong between a document and its type graph. -/
namespace LinkedSchema

/-- Why an enumeration cannot have names. -/
inductive EnumDefect where
  | notList
  | lengths (names values : Nat)

/-- What a plain keyword was to be used as when its value turned out to be of another kind. -/
inductive Misuse where
  | bound
  | magnitude
  | description
  | name
  | enumeration
  | typeName

/-- The faults of a schema carry the node they arose at and the name of the file. -/
inductive Fault where
  | refused (refusal : Refusal)
  | negativeTupleSize (size : Int)
  | conflictingIds (legacyId id : Json) (node : NodeId) (fileName : Option String)
  | malformedEnum (defect : EnumDefect) (node : NodeId) (fileName : Option String)
  | unresolvedReference (ref : Json) (node : NodeId) (fileName : Option String)
  | misused (as : Misuse)
  | unfilledType
  | outOfFuel

namespace Fault

def enumDefectText : EnumDefect → String
  | .notList => "schema.enum is an object; tsEnumNames requires a list of values"
  | .lengths names values =>
    "tsEnumNames has " ++ intText names ++ " entries but enum has " ++ intText values ++ " values"

def misuseText : Misuse → String
  | .bound => "a bound of an array is not a number"
  | .magnitude => "a bound of an array is too large for floating-point arithmetic"
  | .description => "a description is not a text"
  | .name => "a name is not a text"
  | .enumeration => "an enumeration has no values to go through"
  | .typeName => "a type name is a list or an object"

/-- What the fault is, without the name of the file. -/
def cause : Fault → String
  | .refused refusal => refusal.message
  | .negativeTupleSize size => "max_tuple_size must be non-negative, got " ++ intText size
  | .conflictingIds legacyId id _ _ =>
    "Schema must define either id or $id, not both. Given id=" ++ legacyId.plain ++ ", $id=" ++
      id.plain
  | .malformedEnum defect _ _ => enumDefectText defect
  | .unresolvedReference ref _ _ =>
    "Refs should have been resolved by the resolver! Found $ref=" ++ ref.shown
  | .misused as => misuseText as
  | .unfilledType => "Cannot serialize an AST that still contains a placeholder"
  | .outOfFuel => "the build was given too few steps"

def fileName : Fault → Option String
  | .conflictingIds _ _ _ fileName | .malformedEnum _ _ fileName
  | .unresolvedReference _ _ fileName => fileName
  | _ => none

/-- The node that the fault arose at. -/
def node? : Fault → Option NodeId
  | .conflictingIds _ _ node _ | .malformedEnum _ node _ | .unresolvedReference _ node _ =>
    some node
  | _ => none

/-- The cause after the name of the file, if there is one. -/
def message (f : Fault) : String :=
  match f.fileName with
  | some name => name ++ ": " ++ f.cause
  | none => f.cause

end Fault
end LinkedSchema
