import LinkedSchema.Json.Number
import LinkedSchema.Naming.Allocator
import LinkedSchema.Normalize.Pipeline
import LinkedSchema.Schema.Category
import LinkedSchema.Schema.Definitions
import LinkedSchema.Types.Graph
/-! The state of a build of type graphs, and the steps that builds are made of. -/
namespace LinkedSchema

/-- The schemas and types of a build, with what it remembers. -/
structure Builder where
  schemas : Graph := .empty
  types : TypeGraph := .empty
  fileName : Option String := none
  /-- The type built for a node in a category, filled or not. -/
  built : List ((NodeId × Category) × TypeId) := []
  usedNames : UsedNames := []
  definitions : DefinitionsCache := []
  /-- The first node that was built; its definitions name nodes without a parent too. -/
  root : Option NodeId := none
  /-- The copies of nodes without what a type is named and described by. -/
  stripped : List (NodeId × NodeId) := []
  /-- The copies of nodes of several types for one of these types. -/
  narrowed : List ((NodeId × Json) × NodeId) := []

/-- A step of a build. A fault leaves the state as far as the build got. -/
abbrev Build := EStateM Fault Builder

namespace Build

/-- Runs a step that changes schemas only. -/
def onSchemas {α : Type} (step : EStateM Fault Graph α) : Build α := fun b =>
  match step b.schemas with
  | .ok a g => .ok a { b with schemas := g }
  | .error e g => .error e { b with schemas := g }

def schema (i : NodeId) : Build Node := return (← get).schemas.node i

def addSchema (n : Node) : Build NodeId := do
  let i := (← get).schemas.size
  modify fun b => { b with schemas := b.schemas.push n }
  return i

def addType (n : TypeNode) : Build TypeId := do
  let t := (← get).types.size
  modify fun b => { b with types := b.types.push n }
  return t

def fill (t : TypeId) (n : TypeNode) : Build Unit :=
  modify fun b => { b with types := b.types.set t n }

def setParams (t : TypeId) (params : Params) : Build Unit :=
  modify fun b => { b with types := b.types.set t { b.types.node t with params } }

/-- Adds a note to the comment of a type, with a blank line before it. -/
def addNote (t : TypeId) (note : String) : Build Unit :=
  modify fun b =>
    let n := b.types.node t
    let comment := if n.comment.truthy then n.comment.plain ++ "\n\n" ++ note else note
    { b with types := b.types.set t { n with comment := .str comment } }

def built? (i : NodeId) (category : Category) : Build (Option TypeId) :=
  return (← get).built.lookup (i, category)

/-- Gives a node an unfilled type to be found before it is complete. -/
def reserve (i : NodeId) (category : Category) : Build TypeId := do
  let t ← addType {}
  modify fun b => { b with built := ((i, category), t) :: b.built }
  return t

/-- Takes the first node that is built as the root. -/
def noteRoot (i : NodeId) : Build Unit :=
  modify fun b => { b with root := some (b.root.getD i) }

def keyBelow (i : NodeId) (root : Option NodeId) : Build (Option String) := do
  let b ← get
  let (key, cache) := b.definitions.keyFor b.schemas i root
  set { b with definitions := cache }
  return key

/-- The name under which the node is defined in its document, or else below the root of the
build. -/
def definitionKey (i : NodeId) : Build (Option String) := do
  match ← keyBelow i none with
  | some key => return some key
  | none =>
    let b ← get
    match b.root with
    | some root => if root == b.schemas.documentRoot i then return none else keyBelow i (some root)
    | none => return none

/-- Makes a name from the first of title, identifier and key that counts as given. -/
def standaloneName (n : Node) (key : Option String) : Build (Option String) := do
  let source :=
    if n.title.truthy then n.title
    else if n.id.truthy then n.id
    else .str (key.getD "")
  match source with
  | .str text =>
    if text.isEmpty then return none
    else
      let (name, used) := (← get).usedNames.allocate text
      modify fun b => { b with usedNames := used }
      return some name
  | _ => throw (.misused .name)

/-- The copy of a node without title, identifier and description. -/
def strip (i : NodeId) : Build NodeId := do
  match (← get).stripped.lookup i with
  | some copy => return copy
  | none =>
    let n ← schema i
    let copy ← addSchema { n with id := .null, title := .null, description := .null }
    modify fun b => { b with stripped := (i, copy) :: b.stripped }
    return copy

/-- Whether a default is a value of a type. -/
def defaultFits (type : Json) (v : Json) : Bool :=
  match type with
  | .str "array" => v.isArr
  | .str "boolean" => v.isBool
  | .str "integer" | .str "number" => v.isNumber
  | .str "string" => v.isText
  | .str "null" => v.isNull
  | .str "object" => v.isObj
  | _ => false

/-- The copy of a node of several types for one of them, without title, identifier, description
and a default of another type. -/
def narrow (i : NodeId) (type : Json) : Build NodeId := do
  if type.isArr || type.isObj then throw (.misused .typeName)
  match (← get).narrowed.find? fun e => e.1.1 == i && e.1.2.alike type with
  | some (_, copy) => return copy
  | none =>
    let n ← schema i
    let copy ← addSchema { n with
      type, id := .null, title := .null, description := .null
      default := n.default.filter (defaultFits type) }
    modify fun b => { b with narrowed := ((i, type), copy) :: b.narrowed }
    return copy

end Build
end LinkedSchema
