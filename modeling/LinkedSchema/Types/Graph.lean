import LinkedSchema.Types.Node
/-! Type graphs: types in a table. -/
namespace LinkedSchema

structure TypeGraph where
  nodes : Array TypeNode

namespace Part

def type? {α : Type} : Part α → Option α
  | .type t => some t
  | .member m => some m.type
  | .choice _ t => some t
  | .value _ => none

end Part

def Params.types {α : Type} : Params α → List α
  | .one t => [t]
  | .many parts => parts.filterMap Part.type?
  | .value _ => []

/-- The types that a type refers to, in the order of an export. -/
def TypeNode.references (n : TypeNode) : List TypeId :=
  n.params.types ++ n.superTypes ++ n.spread.toList

namespace TypeGraph

def empty : TypeGraph := ⟨#[]⟩

def size (g : TypeGraph) : Nat := g.nodes.size

/-- The type of a number; beyond the table all types are unfilled. -/
def node (g : TypeGraph) (t : TypeId) : TypeNode := g.nodes.getD t {}

def set (g : TypeGraph) (t : TypeId) (n : TypeNode) : TypeGraph := ⟨g.nodes.setIfInBounds t n⟩

def push (g : TypeGraph) (n : TypeNode) : TypeGraph := ⟨g.nodes.push n⟩

@[simp] theorem size_set (g : TypeGraph) (t : TypeId) (n : TypeNode) :
    (g.set t n).size = g.size := by
  simp [size, set]

@[simp] theorem size_push (g : TypeGraph) (n : TypeNode) : (g.push n).size = g.size + 1 := by
  simp [size, push]

theorem node_set_self {g : TypeGraph} {t : TypeId} (h : t < g.size) (n : TypeNode) :
    (g.set t n).node t = n := by
  have inside : t < g.nodes.size := h
  simp [node, set, Array.getD, inside]

theorem node_set_ne {g : TypeGraph} {t u : TypeId} (h : t ≠ u) (n : TypeNode) :
    (g.set t n).node u = g.node u := by
  simp [node, set, Array.getD_eq_getD_getElem?, Array.getElem?_setIfInBounds_ne h]

theorem node_push_self (g : TypeGraph) (n : TypeNode) : (g.push n).node g.size = n := by
  simp [node, push, size, Array.getD_eq_getD_getElem?]

theorem node_push_of_lt {g : TypeGraph} {t : TypeId} (h : t < g.size) (n : TypeNode) :
    (g.push n).node t = g.node t := by
  have inside : t < g.nodes.size := h
  simp [node, push, Array.getD_eq_getD_getElem?, Array.getElem?_push, Nat.ne_of_lt inside]

theorem node_of_le {g : TypeGraph} {t : TypeId} (h : g.size ≤ t) : g.node t = {} := by
  have beyond : g.nodes.size ≤ t := h
  simp [node, Array.getD_eq_getD_getElem?, Array.getElem?_eq_none beyond]

end TypeGraph
end LinkedSchema
