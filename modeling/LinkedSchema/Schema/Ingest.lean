import LinkedSchema.Schema.Document
import LinkedSchema.Schema.Graph
import LinkedSchema.Schema.Refusal
/-! Ingestion of documents: one node for each object that stands where a schema is expected. A
shared part becomes one node, whose parent is the node it was first met in. -/
namespace LinkedSchema

/-- The graph built so far, and the nodes of the shared parts met so far. -/
structure Intake where
  graph : Graph
  linked : List (String × NodeId)

abbrev Ingestion := StateT Intake (Except Refusal)

namespace Ingestion

/-- Adds an unfinished node, to be found by links to it. -/
def reserve (parent : Option NodeId) (name : Option String) : Ingestion NodeId := do
  let s ← get
  let i := s.graph.size
  set ({ graph := s.graph.push { parent }
         linked := (name.map (·, i)).toList ++ s.linked } : Intake)
  return i

def finish (i : NodeId) (n : Node) : Ingestion Unit :=
  modify fun s => { s with graph := s.graph.set i n }

/-- A schema in the place of a keyword. The first argument ingests objects. -/
def subschema (object : Json → Ingestion NodeId) (keyword : String) (v : Json) :
    Ingestion Subschema :=
  match v with
  | .bool b => return .bool b
  | .obj entries => return .node (← object (.obj entries))
  | found => throw (.schema keyword found)

def members (object : Json → Ingestion NodeId) (keyword : String) (v : Json) :
    Ingestion (List Subschema) :=
  match v with
  | .arr values => values.mapM (subschema object keyword)
  | _ => throw (.list keyword)

def entries (object : Json → Ingestion NodeId) (keyword : String) (v : Json) :
    Ingestion (Entries Subschema) :=
  match v with
  | .obj values => values.mapM fun e => return (e.1, ← subschema object keyword e.2)
  | _ => throw (.map keyword)

def items (object : Json → Ingestion NodeId) (v : Json) : Ingestion Items :=
  match v with
  | .arr _ => return .positions (← members object "items" v)
  | _ => return .each (← subschema object "items" v)

def bases (object : Json → Ingestion NodeId) (v : Json) : Ingestion Bases :=
  match v with
  | .null => return .null
  | .arr _ => return .many (← members object "extends" v)
  | _ => return .one (← subschema object "extends" v)

/-- Reads a keyword if it is there. -/
def optional {α : Type} (fields : Entries Json) (keyword : String)
    (read : String → Json → Ingestion α) : Ingestion (Option α) :=
  match fields.lookup keyword with
  | some v => return some (← read keyword v)
  | none => return none

/-- The definitions under both of their keywords; those under `$defs` win. -/
def mergeDefinitions (older newer : Option (Entries Subschema)) : Option (Entries Subschema) :=
  match older, newer with
  | some older, some newer => some (older.merge newer)
  | some older, none => some older
  | none, newer => newer

/-- The node of an object. The keywords are read in a fixed order, whatever their order in the
object. -/
def node (object : Json → Ingestion NodeId) (parent : Option NodeId) (fields : Entries Json) :
    Ingestion Node := do
  let plain (keyword : String) : Json := (fields.lookup keyword).getD .null
  let additionalProperties ← optional fields "additionalProperties" (subschema object)
  let additionalItems ← optional fields "additionalItems" (subschema object)
  let allOf ← optional fields "allOf" (members object)
  let anyOf ← optional fields "anyOf" (members object)
  let oneOf ← optional fields "oneOf" (members object)
  let properties ← optional fields "properties" (entries object)
  let patternProperties ← optional fields "patternProperties" (entries object)
  let items ← optional fields "items" fun _ => items object
  let bases ← optional fields "extends" fun _ => bases object
  let definitions ← optional fields "definitions" (entries object)
  let defs ← optional fields "$defs" (entries object)
  return {
    type := plain "type"
    minItems := plain "minItems"
    maxItems := plain "maxItems"
    required := plain "required"
    enum := plain "enum"
    tsEnumNames := plain "tsEnumNames"
    tsType := plain "tsType"
    title := plain "title"
    id := plain "$id"
    legacyId := plain "id"
    description := plain "description"
    deprecated := plain "deprecated"
    ref := plain "$ref"
    const := fields.lookup "const"
    default := fields.lookup "default"
    additionalProperties, additionalItems, allOf, anyOf, oneOf, properties, patternProperties
    items, bases
    definitions := mergeDefinitions definitions defs
    parent }

/-- Ingests an object below a parent, or finds the node of the part that it links to. Every step
down reads an object of the document that was not read before, so the weight of the document
bounds the depth. -/
def object (d : Document) : Nat → Option NodeId → Json → Ingestion NodeId
  | 0, _, _ => throw .depth
  | fuel + 1, parent, v => do
    match v.link?, v with
    | some name, _ =>
      match d.target? (d.parts.length + 1) name with
      | none => throw (.link name)
      | some (name, fields) =>
        match (← get).linked.lookup name with
        | some i => return i
        | none =>
          let i ← reserve parent (some name)
          finish i (← node (object d fuel (some i)) parent fields)
          return i
    | none, .obj fields =>
      let i ← reserve parent none
      finish i (← node (object d fuel (some i)) parent fields)
      return i
    | none, found => throw (.root found)

end Ingestion

/-- Adds the nodes of a document to a graph. A refused document leaves the graph as it is. -/
def Document.ingest (d : Document) : EStateM Refusal Graph NodeId := fun g =>
  match (Ingestion.object d (d.weight + 1) none d.root).run ⟨g, []⟩ with
  | .ok (i, s) => .ok i s.graph
  | .error e => .error e g

end LinkedSchema
