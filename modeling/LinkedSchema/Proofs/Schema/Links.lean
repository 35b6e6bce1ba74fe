import LinkedSchema.Proofs.Normalize.Passes
import LinkedSchema.Proofs.Search
import LinkedSchema.Schema.Definitions
/-! The edges of a graph by the keywords they stand under. -/
namespace LinkedSchema

/-- What an edge stands under, in the order that a walk follows the edges of a node. -/
inductive Link where
  | anyOf
  | allOf
  | oneOf
  | properties
  | patternProperties
  | additionalProperties
  | items
  | additionalItems
  | bases
  | definitions

def Link.all : List Link :=
  [.anyOf, .allOf, .oneOf, .properties, .patternProperties, .additionalProperties, .items,
    .additionalItems, .bases, .definitions]

namespace Node

def unnamed? (members : Option (List Subschema)) : List (Option String × Subschema) :=
  (members.getD []).map (none, ·)

def named? (entries : Option (Entries Subschema)) : List (Option String × Subschema) :=
  (entries.getD []).map fun e => (some e.1, e.2)

/-- The schemas under a keyword, in order. Those of a map are found under a name. -/
def under (n : Node) : Link → List (Option String × Subschema)
  | .anyOf => unnamed? n.anyOf
  | .allOf => unnamed? n.allOf
  | .oneOf => unnamed? n.oneOf
  | .properties => named? n.properties
  | .patternProperties => named? n.patternProperties
  | .additionalProperties => unnamed? (n.additionalProperties.map ([·]))
  | .items => unnamed? (n.items.map Items.toList)
  | .additionalItems => unnamed? (n.additionalItems.map ([·]))
  | .bases => unnamed? (n.bases.map Bases.toList)
  | .definitions => named? n.definitions

end Node

namespace Graph

/-- The edge to a node of the graph, if the schema is one. -/
def edge? (g : Graph) (e : Option String × Subschema) : Option Visit :=
  match e.2 with
  | .node j => if j < g.size then some ⟨e.1, j⟩ else none
  | _ => none

/-- The edges of a node, keyword after keyword. -/
def edges (g : Graph) (i : NodeId) : List Visit :=
  Link.all.flatMap fun link => ((g.node i).under link).filterMap g.edge?

end Graph

def Graph.Edge (g : Graph) (i j : NodeId) : Prop := ∃ v ∈ g.edges i, v.node = j

variable {g : Graph}

theorem Visit.filter_ofMembers (members : Option (List Subschema)) :
    (Visit.ofMembers members).filter (fun v => decide (v.node < g.size)) =
      (Node.unnamed? members).filterMap g.edge? := by
  rw [Visit.ofMembers, Node.unnamed?, List.filter_filterMap, List.filterMap_map]
  congr 1
  funext s
  cases s with
  | node j =>
    by_cases inside : j < g.size <;>
      simp [Visit.ofMember?, Subschema.node?, Graph.edge?, Option.filter, inside]
  | _ => rfl

theorem Visit.filter_ofEntries (entries : Option (Entries Subschema)) :
    (Visit.ofEntries entries).filter (fun v => decide (v.node < g.size)) =
      (Node.named? entries).filterMap g.edge? := by
  rw [Visit.ofEntries, Node.named?, List.filter_filterMap, List.filterMap_map]
  congr 1
  funext e
  obtain ⟨name, s⟩ := e
  cases s with
  | node j =>
    by_cases inside : j < g.size <;>
      simp [Visit.ofEntry?, Subschema.node?, Graph.edge?, Option.filter, inside]
  | _ => rfl

theorem Visit.ofSingle_eq (s : Option Subschema) :
    Visit.ofSingle s = Visit.ofMembers (s.map ([·])) := by
  cases s with
  | none => rfl
  | some s => cases s <;> rfl

section

variable {j : NodeId}

theorem Visit.exists_ofMembers {members : Option (List Subschema)} :
    (∃ v ∈ Visit.ofMembers members, v.node = j) ↔ .node j ∈ members.getD [] := by
  constructor
  · rintro ⟨v, listed, rfl⟩
    obtain ⟨s, member, here⟩ := List.mem_filterMap.mp listed
    cases s <;> cases here
    exact member
  · exact fun member => ⟨⟨none, j⟩, List.mem_filterMap.mpr ⟨_, member, rfl⟩, rfl⟩

theorem Visit.exists_ofEntries {entries : Option (Entries Subschema)} :
    (∃ v ∈ Visit.ofEntries entries, v.node = j) ↔ .node j ∈ (entries.getD []).map (·.2) := by
  constructor
  · rintro ⟨v, listed, rfl⟩
    obtain ⟨⟨name, s⟩, member, here⟩ := List.mem_filterMap.mp listed
    cases s <;> cases here
    exact List.mem_map.mpr ⟨_, member, rfl⟩
  · intro member
    obtain ⟨⟨name, _⟩, listed, rfl⟩ := List.mem_map.mp member
    exact ⟨⟨some name, j⟩, List.mem_filterMap.mpr ⟨_, listed, rfl⟩, rfl⟩

theorem Visit.exists_ofSingle {s : Option Subschema} :
    (∃ v ∈ Visit.ofSingle s, v.node = j) ↔ .node j ∈ s.toList := by
  rw [Visit.ofSingle_eq, Visit.exists_ofMembers]
  cases s <;> rfl

/-- The nodes that a node leads to are those among its children. -/
theorem Node.leadsTo_iff {n : Node} : n.LeadsTo j ↔ .node j ∈ n.children := by
  simp only [LeadsTo, successors, children, List.mem_append, or_and_right, exists_or,
    Visit.exists_ofMembers, Visit.exists_ofEntries, Visit.exists_ofSingle]
  tauto

end

namespace Graph

/-- A walk goes on from a node by its edges, and by nothing else that is in the graph. -/
theorem edges_eq (g : Graph) (i : NodeId) :
    g.edges i = (g.node i).successors.filter fun v => decide (v.node < g.size) := by
  simp only [Node.successors, Visit.ofSingle_eq, List.filter_append, Visit.filter_ofMembers,
    Visit.filter_ofEntries]
  simp only [edges, Link.all, List.flatMap_cons, List.flatMap_nil, List.append_nil,
    List.append_assoc]
  rfl

theorem mem_edges {g : Graph} {i : NodeId} {v : Visit} :
    v ∈ g.edges i ↔ v ∈ (g.node i).successors ∧ v.node < g.size := by
  rw [edges_eq, List.mem_filter, decide_eq_true_iff]

/-- The nodes below a node of the graph are those that its edges lead to. -/
theorem below_iff {root i : NodeId} (inside : root < g.size) :
    g.Below root i ↔ Relation.ReflTransGen g.Edge root i := by
  constructor
  · rintro ⟨within, reaches⟩
    refine Relation.ReflTransGen.head_induction_on reaches .refl ?_
    rintro j k ⟨v, hv, rfl⟩ onward walked
    refine .head ⟨v, mem_edges.mpr ⟨hv, ?_⟩, rfl⟩ walked
    -- nothing leads on from beyond the graph
    by_contra outside
    rcases onward.cases_head with here | ⟨w, ⟨u, hu, _⟩, _⟩
    · exact outside (here ▸ within)
    · rw [successors_of_le (Nat.le_of_not_lt outside)] at hu
      cases hu
  · intro reaches
    induction reaches with
    | refl => exact ⟨inside, .refl⟩
    | tail _ edge ih =>
      obtain ⟨v, hv, rfl⟩ := edge
      obtain ⟨listed, within⟩ := mem_edges.mp hv
      exact ⟨within, ih.2.tail ⟨v, listed, rfl⟩⟩

end Graph
end LinkedSchema
