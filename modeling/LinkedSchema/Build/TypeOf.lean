import LinkedSchema.Build.Shapes
import LinkedSchema.Schema.Ingest
import LinkedSchema.Types.Export
/-! The build of type graphs. The type of a node has its place in the graph before its contents are
computed, so a node that leads back to itself finds its own type. -/
namespace LinkedSchema
namespace Build

/-- The type of a node in one category, built unless it was built before. -/
def inCategory (sub : Subbuild) (i : NodeId) (category : Category) (keyName : Option String) :
    Build TypeId := do
  match ← built? i category with
  | some t => return t
  | none =>
    let t ← reserve i category
    fill t (← shape sub i category keyName)
    return t

/-- The type of a node of several categories: an intersection with one member for each of them.
The intersection takes the name and the description, and its members are built from a copy without
them. -/
def combination (sub : Subbuild) (i : NodeId) (categories : List Category)
    (keyName : Option String) : Build TypeId := do
  match ← built? i .allOf with
  | some t => return t
  | none =>
    let t ← reserve i .allOf
    let key ← definitionKey i
    let n ← schema i
    let name ← standaloneName n key
    fill t { n.describe .intersection keyName name with params := .many [] }
    let copy ← strip i
    let parts ← categories.mapM fun c => return Part.type (← inCategory sub copy c keyName)
    setParams t (.many parts)
    return t

/-- One level of the build: the types of the schemas below are built by the argument. -/
def level (sub : Subbuild) (s : Subschema) (keyName : Option String) : Build TypeId :=
  match s with
  | .bool b => addType (booleanSchema keyName b)
  | .bare v => addType (literal keyName v)
  | .node i => do
    noteRoot i
    match (← schema i).categories with
    | [category] => inCategory sub i category keyName
    | categories => combination sub i categories keyName

/-- As many levels as the fuel says. -/
def levels : Nat → Subbuild
  | 0 => fun _ _ => throw .outOfFuel
  | fuel + 1 => level (levels fuel)

/-- The number of types that a node is declared with. -/
def typeCount (n : Node) : Nat :=
  match n.type with
  | .arr types => types.length
  | _ => 0

/-- A bound on the depth of a build. Every level that is not cut short by what was built before
adds an entry for a node and a category. A node has a stripped copy, a copy for each of its types,
and such copies of its stripped copy, and the copies for one type have stripped copies. -/
def depth (g : Graph) : Nat :=
  let types := g.nodes.foldl (fun most n => max most (typeCount n)) 0
  18 * (g.size * (2 + 4 * types)) + 2

/-- Builds the type of a schema. -/
def typeOf (s : Subschema) (keyName : Option String) : Build TypeId := do
  levels (depth (← get).schemas) s keyName

/-- Runs a step from a state made of the current one, and makes the next state of the current one
and the one that the step ends in. -/
def inside {α : Type} (enter : Builder → Builder) (leave : Builder → Builder → Builder)
    (step : Build α) : Build α := fun b =>
  match step (enter b) with
  | .ok a after => .ok a (leave b after)
  | .error e after => .error e (leave b after)

/-- A step as a build of its own over the same types, names and definitions: it has another root,
and shares no copies of nodes. -/
def renewed {α : Type} (step : Build α) : Build α :=
  inside (fun b => { b with root := none, stripped := [], narrowed := [] })
    (fun b after =>
      { after with root := b.root, stripped := b.stripped, narrowed := b.narrowed })
    step

/-- A step as a build of its own that shares nothing but the graphs. -/
def isolated {α : Type} (step : Build α) : Build α :=
  inside (fun b => { schemas := b.schemas, types := b.types })
    (fun b after => { b with schemas := after.schemas, types := after.types })
    step

end Build

/-- Ingests a document into the graph of a build. -/
def Build.ingest (d : Document) : Build NodeId :=
  onSchemas fun g =>
    match d.ingest g with
    | .ok i g => .ok i g
    | .error refusal g => .error (.refused refusal) g

/-- The type of a node and all that it leads to, once they are normalized. -/
def Build.compileNode (options : Options) (root : NodeId) : Build TypeId := do
  onSchemas (Graph.normalize options (← get).fileName root)
  typeOf (.node root) none

/-- The type of a document. A boolean document needs no normalization. -/
def Build.compile (d : Document) (options : Options) : Build TypeId :=
  match d.root with
  | .bool b => typeOf (.bool b) none
  | _ => do compileNode options (← ingest d)

end LinkedSchema
