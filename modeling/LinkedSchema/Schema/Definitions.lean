import LinkedSchema.Schema.Walk
/-! Named definitions that can be reached from a schema. -/
namespace LinkedSchema

abbrev Definitions := Entries Subschema

/-- All that a node leads to, in the order in which definitions are collected. -/
def Node.children (n : Node) : List Subschema :=
  (n.properties.getD []).map (·.2) ++ (n.patternProperties.getD []).map (·.2) ++
    (n.definitions.getD []).map (·.2) ++ n.allOf.getD [] ++ n.anyOf.getD [] ++ n.oneOf.getD [] ++
    (n.items.map Items.toList).getD [] ++ (n.bases.map Bases.toList).getD [] ++
    n.additionalProperties.toList ++ n.additionalItems.toList

namespace Graph

/-- The definitions below a schema, and the nodes seen so far. Every step down sees a new node, so
the number of nodes bounds the depth. -/
def collectBelow (g : Graph) : Nat → List NodeId → Subschema → Definitions × List NodeId
  | 0, seen, _ => ([], seen)
  | fuel + 1, seen, s =>
    match s with
    | .node i =>
      if seen.contains i then ([], seen)
      else
        (g.node i).children.foldl
          (fun (found, seen) child =>
            let (more, seen) := g.collectBelow fuel seen child
            (found.merge more, seen))
          ((g.node i).definitions.getD [], i :: seen)
    | _ => ([], seen)

/-- All definitions that can be reached from a node. A deeper one replaces a shallower one of the
same name and keeps its place. -/
def definitions (g : Graph) (i : NodeId) : Definitions := (g.collectBelow g.size [] (.node i)).1

end Graph

/-- The first name under which a node is defined. -/
def Definitions.keyOf (found : Definitions) (i : NodeId) : Option String :=
  (found.find? fun e => e.2.node? == some i).map (·.1)

/-- Definitions collected before, by the node they were collected from. Later changes of the graph
do not show in them. -/
abbrev DefinitionsCache := List (NodeId × Definitions)

namespace DefinitionsCache

def get (cache : DefinitionsCache) (g : Graph) (root : NodeId) : Definitions × DefinitionsCache :=
  match cache.lookup root with
  | some found => (found, cache)
  | none =>
    let found := g.definitions root
    (found, (root, found) :: cache)

/-- The first name under which a node is defined below a root. Without a root, it is the one of the
document that the node belongs to. -/
def keyFor (cache : DefinitionsCache) (g : Graph) (i : NodeId) (root : Option NodeId) :
    Option String × DefinitionsCache :=
  let (found, cache) := cache.get g (root.getD (g.documentRoot i))
  (found.keyOf i, cache)

end DefinitionsCache
end LinkedSchema
