import LinkedSchema.Build.Builder
import LinkedSchema.Text.CommentEnd
/-! How the type of a node is made in each category. The types of other schemas come from a builder
that is given as an argument. -/
namespace LinkedSchema

/-- Builds the type of a schema that was found under a name, if under any. -/
abbrev Subbuild := Subschema → Option String → Build TypeId

/-- A type of a kind that takes over what the node says about itself. -/
def Node.describe (n : Node) (kind : Kind) (keyName name : Option String) : TypeNode :=
  { kind := some kind, keyName, standaloneName := name, comment := n.description
    deprecated := n.deprecated }

namespace Build

def addAny : Build TypeId := addType { kind := some .any }

def literal (keyName : Option String) (v : Json) : TypeNode :=
  { kind := some .literal, params := .value v, keyName }

/-- True admits anything and false nothing. -/
def booleanSchema (keyName : Option String) (b : Bool) : TypeNode :=
  { kind := some (if b then .any else .never), keyName }

/-- The types of schemas, one after the other. -/
def typesOf (sub : Subbuild) (members : List Subschema) : Build (List Part) :=
  members.mapM fun s => return .type (← sub s none)

/-- A type made of the types of the members. -/
def collection (sub : Subbuild) (n : Node) (kind : Kind) (members : List Subschema)
    (keyName key : Option String) : Build TypeNode := do
  let name ← standaloneName n key
  let parts ← typesOf sub members
  return { n.describe kind keyName name with params := .many parts }

/-- The names of an enumeration, one for each value. -/
def enumNames (n : Node) : Build (List Json) :=
  if n.tsEnumNames.truthy then
    match n.tsEnumNames.elements? with
    | some names => return names
    | none => throw (.misused .enumeration)
  else return []

def namedEnum (n : Node) (i : NodeId) (keyName key : Option String) : Build TypeNode := do
  let fileName := (← get).fileName
  match n.enum with
  | .arr values =>
    let names ← enumNames n
    if names.length ≠ values.length then
      throw (.malformedEnum (.lengths names.length values.length) i fileName)
    let name ← standaloneName n (if (key.getD "").isEmpty then keyName else key)
    let parts ← (names.zip values).mapM fun e =>
      return Part.choice e.1 (← addType (literal none e.2))
    return { n.describe .enum keyName name with params := .many parts }
  | _ => throw (.malformedEnum .notList i fileName)

/-- The values of an enumeration without names. -/
def enumValues (n : Node) : Build (List Json) :=
  match n.enum with
  | .obj entries => return entries.map (·.2)
  | v =>
    if v.truthy then
      match v.elements? with
      | some values => return values
      | none => throw (.misused .enumeration)
    else return []

def unnamedEnum (n : Node) (keyName key : Option String) : Build TypeNode := do
  let values ← enumValues n
  let name ← standaloneName n key
  let parts ← values.mapM fun v => return Part.type (← addType (literal none v))
  return { n.describe .union keyName name with params := .many parts }

/-- The type of further elements of a tuple, if there may be any. -/
def spreadOf (sub : Subbuild) : Option Subschema → Build (Option TypeId)
  | some (.bool true) => return some (← addAny)
  | some (.node i) => return some (← sub (.node i) none)
  | _ => return none

def typedArray (sub : Subbuild) (n : Node) (keyName key : Option String) : Build TypeNode := do
  let name ← standaloneName n key
  match n.items with
  | some (.positions items) =>
    let parts ← typesOf sub items
    let spread ← spreadOf sub n.additionalItems
    return { n.describe .tuple keyName name with
      params := .many parts, minItems := n.minItems, maxItems := n.maxItems, spread }
  | some (.each item) =>
    return { n.describe .array keyName name with params := .one (← sub item none) }
  | none =>
    return { n.describe .array keyName name with params := .one (← sub (.bare .null) none) }

/-- The places of a tuple whose elements may be anything, if its bounds make it a tuple. -/
def anyPlaces (upper : Int) (lower : Json) : Build (Option Nat) :=
  match lower.number? with
  | none => throw (.misused .bound)
  | some bound =>
    if (Number.int 0).less bound || 0 ≤ upper then
      if (Number.int upper).less bound then
        match lower.int? with
        | some count => return some count.toNat
        | none => throw (.misused .bound)
      else return some upper.toNat
    else return none

def untypedArray (n : Node) (keyName key : Option String) : Build TypeNode := do
  let lower := n.minItems.orZero
  let upper := n.maxItems.int?.getD (-1)
  let name ← standaloneName n key
  match ← anyPlaces upper lower with
  | some places =>
    let parts ← (List.replicate places ()).mapM fun _ => return Part.type (← addAny)
    let spread ← if 0 ≤ upper then pure none else some <$> addAny
    return { n.describe .tuple keyName name with
      params := .many parts, minItems := lower, maxItems := n.maxItems, spread }
  | none => return { n.describe .array keyName name with params := .one (← addAny) }

def isRequired (n : Node) (key : String) : Bool :=
  match n.required with
  | .arr names => names.any (·.isStr key)
  | _ => false

/-- The members for the properties of a node. -/
def propertyMembers (sub : Subbuild) (n : Node) : Build (List Member) :=
  (n.properties.getD []).mapM fun e =>
    return { key := e.1, type := ← sub e.2 (some e.1), isRequired := isRequired n e.1 }

/-- Whether the only pattern of a node stands for all names not listed: nothing is said of
additional properties, or that there are none. -/
def hasSinglePattern (n : Node) : Bool :=
  match n.patternProperties with
  | some [_] =>
    match n.additionalProperties with
    | none | some (.bool false) => true
    | _ => false
  | _ => false

def owner (name : Option String) : String :=
  match name with
  | some name => if name.isEmpty then "its parent's" else "`" ++ name ++ "`'s"
  | none => "its parent's"

def patternNote (name : Option String) (pattern : String) : String :=
  "This interface was referenced by " ++ owner name ++
    " JSON-Schema definition\nvia the `patternProperty` \"" ++
    .ofList (splitCommentEnds '\\' pattern.toList) ++ "\"."

def definitionNote (name : Option String) (key : String) : String :=
  "This interface was referenced by " ++ owner name ++
    " JSON-Schema\nvia the `definition` \"" ++ key ++ "\"."

/-- The members for the patterns of a node, with a note at each type. -/
def patternMembers (sub : Subbuild) (n : Node) (name : Option String) : Build (List Member) :=
  (n.patternProperties.getD []).mapM fun e => do
    let type ← sub e.2 (some e.1)
    addNote type (patternNote name e.1)
    if hasSinglePattern n then return { key := indexKey, type, isRequired := true }
    else return { key := e.1, type, isRequired := isRequired n e.1, isPattern := true }

/-- The members for the definitions of a node, with a note at each type. -/
def definitionMembers (sub : Subbuild) (n : Node) (name : Option String) : Build (List Member) :=
  (n.definitions.getD []).mapM fun e => do
    let type ← sub e.2 (some e.1)
    addNote type (definitionNote name e.1)
    return { key := e.1, type, isRequired := isRequired n e.1, isUnreachable := true }

/-- The member for all names not listed, if there may be such names. -/
def additionalMembers (sub : Subbuild) (n : Node) : Build (List Member) :=
  match n.additionalProperties with
  | none | some (.bool true) =>
    if hasSinglePattern n then return []
    else do
      let type ← addType { kind := some .any, keyName := some indexKey }
      return [{ key := indexKey, type, isRequired := true }]
  | some (.node i) =>
    return [{ key := indexKey, type := ← sub (.node i) (some indexKey), isRequired := true }]
  | some _ => return []

def members (sub : Subbuild) (n : Node) (name : Option String) : Build (List Member) := do
  let properties ← propertyMembers sub n
  let patterns ← patternMembers sub n name
  let definitions ← definitionMembers sub n name
  let additional ← additionalMembers sub n
  return properties ++ patterns ++ definitions ++ additional

/-- The types that an interface extends. A single false extends nothing. -/
def superTypes (sub : Subbuild) (n : Node) : Build (List TypeId) :=
  match n.bases with
  | some (.one (.bool false)) => return []
  | some bases => bases.toList.mapM fun s => sub s none
  | none => return []

def interface (sub : Subbuild) (n : Node) (keyName key : Option String) : Build TypeNode := do
  let name ← standaloneName n key
  let parts ← members sub n name
  let superTypes ← superTypes sub n
  return { n.describe .interface keyName name with
    params := .many (parts.map .member), superTypes }

/-- A union of the copies of a node for each of its types. -/
def union (sub : Subbuild) (n : Node) (i : NodeId) (keyName key : Option String) :
    Build TypeNode := do
  let name ← standaloneName n key
  let types := match n.type with
    | .arr types => types
    | _ => []
  let parts ← types.mapM fun type => do return Part.type (← sub (.node (← narrow i type)) none)
  return { n.describe .union keyName name with params := .many parts }

def scalar (n : Node) (kind : Kind) (keyName key : Option String) : Build TypeNode := do
  return n.describe kind keyName (← standaloneName n key)

/-- The type of a node in one of its categories. -/
def shape (sub : Subbuild) (i : NodeId) (category : Category) (keyName : Option String) :
    Build TypeNode := do
  let key ← definitionKey i
  let n ← schema i
  match category with
  | .allOf => collection sub n .intersection (n.allOf.getD []) keyName key
  | .anyOf => collection sub n .union (n.anyOf.getD []) keyName key
  | .oneOf => collection sub n .union (n.oneOf.getD []) keyName key
  | .any => scalar n .any keyName key
  | .customType => return { ← scalar n .customType keyName key with params := .value n.tsType }
  | .namedEnum => namedEnum n i keyName key
  | .unnamedEnum => unnamedEnum n keyName key
  | .namedSchema => interface sub n keyName none
  | .unnamedSchema => interface sub n keyName key
  | .reference =>
    throw (.unresolvedReference (if n.ref.truthy then n.ref else .str "") i (← get).fileName)
  | .typedArray => typedArray sub n keyName key
  | .untypedArray => untypedArray n keyName key
  | .union => union sub n i keyName key
  | .boolean => scalar n .boolean keyName key
  | .null => scalar n .null keyName key
  | .number => scalar n .number keyName key
  | .object => scalar n .object keyName key
  | .string => scalar n .string keyName key

end Build
end LinkedSchema
