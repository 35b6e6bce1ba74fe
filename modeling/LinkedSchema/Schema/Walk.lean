import LinkedSchema.Schema.Graph
/-! Walks over a schema graph, depth first. A walk visits each node once and may change it; the
edges that it follows from there are those of the changed node. -/
namespace LinkedSchema

/-- A node met on a walk, with the name it was reached under: that of a property, a pattern or a
definition. -/
structure Visit where
  key : Option String
  node : NodeId
  deriving DecidableEq

namespace Visit

def ofMember? (s : Subschema) : Option Visit := s.node?.map (⟨none, ·⟩)

def ofEntry? (e : String × Subschema) : Option Visit := e.2.node?.map (⟨some e.1, ·⟩)

def ofMembers (members : Option (List Subschema)) : List Visit :=
  (members.getD []).filterMap ofMember?

def ofEntries (entries : Option (Entries Subschema)) : List Visit :=
  (entries.getD []).filterMap ofEntry?

def ofSingle (s : Option Subschema) : List Visit := (s.bind ofMember?).toList

end Visit

def Items.toList : Items → List Subschema
  | .each item => [item]
  | .positions items => items

def Bases.toList : Bases → List Subschema
  | .null => []
  | .one base => [base]
  | .many bases => bases

/-- The nodes that a node leads to, in the order of a walk. -/
def Node.successors (n : Node) : List Visit :=
  Visit.ofMembers n.anyOf ++ Visit.ofMembers n.allOf ++ Visit.ofMembers n.oneOf ++
    Visit.ofEntries n.properties ++ Visit.ofEntries n.patternProperties ++
    Visit.ofSingle n.additionalProperties ++ Visit.ofMembers (n.items.map Items.toList) ++
    Visit.ofSingle n.additionalItems ++ Visit.ofMembers (n.bases.map Bases.toList) ++
    Visit.ofEntries n.definitions

namespace Graph

/-- Whether nothing is to be done for a pending visit: its node is done, or not in the graph. -/
def isIdle (g : Graph) (done : List Visit) (v : Visit) : Bool :=
  done.any (·.node == v.node) || !decide (v.node < g.size)

/-- Visits what is pending, and before the rest of it all that is met on the way. Every step visits
a new node, so as many steps as there are nodes are enough. The visits done stand backwards. An
edit that fails ends the walk and leaves its node as it was. -/
def walkFrom {ε : Type} (edit : Visit → Node → Except ε Node) :
    Nat → List Visit → List Visit → Graph → EStateM.Result (NodeId × ε) Graph (List Visit)
  | 0, _, done, g => .ok done.reverse g
  | fuel + 1, pending, done, g =>
    match pending.dropWhile (g.isIdle done) with
    | [] => .ok done.reverse g
    | v :: rest =>
      match edit v (g.node v.node) with
      | .error e => .error (v.node, e) g
      | .ok n => walkFrom edit fuel (n.successors ++ rest) (v :: done) (g.set v.node n)

/-- Walks from a root. A failure carries the node it arose at. -/
def walk {ε : Type} (edit : Visit → Node → Except ε Node) (root : NodeId) :
    EStateM (NodeId × ε) Graph (List Visit) :=
  fun g => walkFrom edit g.size [⟨none, root⟩] [] g

/-- The visits of a walk that changes nothing. -/
def visits (g : Graph) (root : NodeId) : List Visit :=
  match walk (fun _ n => (.ok n : Except Empty Node)) root g with
  | .ok visits _ => visits
  | .error _ _ => []

end Graph
end LinkedSchema
