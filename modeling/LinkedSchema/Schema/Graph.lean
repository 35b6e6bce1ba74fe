import LinkedSchema.Schema.Node
/-! Schema graphs: nodes in a table. -/
namespace LinkedSchema

structure Graph where
  nodes : Array Node
  deriving Inhabited

namespace Graph

def empty : Graph := ⟨#[]⟩

def size (g : Graph) : Nat := g.nodes.size

/-- The node of a number; beyond the table there are nodes without keywords. -/
def node (g : Graph) (i : NodeId) : Node := g.nodes.getD i {}

def set (g : Graph) (i : NodeId) (n : Node) : Graph := ⟨g.nodes.setIfInBounds i n⟩

def push (g : Graph) (n : Node) : Graph := ⟨g.nodes.push n⟩

@[simp] theorem size_set (g : Graph) (i : NodeId) (n : Node) : (g.set i n).size = g.size := by
  simp [size, set]

@[simp] theorem size_push (g : Graph) (n : Node) : (g.push n).size = g.size + 1 := by
  simp [size, push]

theorem node_set_self {g : Graph} {i : NodeId} (h : i < g.size) (n : Node) :
    (g.set i n).node i = n := by
  have inside : i < g.nodes.size := h
  simp [node, set, Array.getD, inside]

theorem node_set_ne {g : Graph} {i j : NodeId} (h : i ≠ j) (n : Node) :
    (g.set i n).node j = g.node j := by
  simp [node, set, Array.getD_eq_getD_getElem?, Array.getElem?_setIfInBounds_ne h]

theorem node_push_self (g : Graph) (n : Node) : (g.push n).node g.size = n := by
  simp [node, push, size, Array.getD_eq_getD_getElem?]

theorem node_push_of_lt {g : Graph} {i : NodeId} (h : i < g.size) (n : Node) :
    (g.push n).node i = g.node i := by
  have inside : i < g.nodes.size := h
  simp [node, push, Array.getD_eq_getD_getElem?, Array.getElem?_push, Nat.ne_of_lt inside]

theorem node_of_le {g : Graph} {i : NodeId} (h : g.size ≤ i) : g.node i = {} := by
  have beyond : g.nodes.size ≤ i := h
  simp [node, Array.getD_eq_getD_getElem?, Array.getElem?_eq_none beyond]

/-- Cuts the parent links of nodes. -/
def detach (g : Graph) (nodes : List NodeId) : Graph :=
  nodes.foldl (fun g i => g.set i { g.node i with parent := none }) g

/-- Follows parent links, at most as many as there are nodes. -/
def ancestor (g : Graph) : Nat → NodeId → NodeId
  | 0, i => i
  | fuel + 1, i =>
    match (g.node i).parent with
    | some p => g.ancestor fuel p
    | none => i

/-- The root of the document that the node belongs to. -/
def documentRoot (g : Graph) (i : NodeId) : NodeId := g.ancestor g.size i

end Graph
end LinkedSchema
