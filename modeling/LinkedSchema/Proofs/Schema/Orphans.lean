import LinkedSchema.Proofs.Entries
import LinkedSchema.Proofs.Schema.Declarations
import LinkedSchema.Proofs.Schema.Parents
/-! Graphs without parent links, and what the definitions below their nodes are. Where no node leads
back to itself, none is among its own definitions. -/
namespace LinkedSchema

variable {g h : Graph} {n : Node} {i j root : NodeId} {p : Option NodeId} {fuel : Nat}
  {key : String} {s : Subschema} {e : String × Subschema}

def Node.withParent (n : Node) (p : Option NodeId) : Node := { n with parent := p }

namespace Graph

/-- The graph with all parent links cut. -/
def orphans (g : Graph) : Graph := ⟨g.nodes.map (·.withParent none)⟩

@[simp] theorem size_orphans (g : Graph) : g.orphans.size = g.size := by simp [size, orphans]

theorem node_orphans (g : Graph) (i : NodeId) : g.orphans.node i = (g.node i).withParent none := by
  by_cases inside : i < g.size
  · have inside : i < g.nodes.size := inside
    simp [node, orphans, Array.getD_eq_getD_getElem?, inside]
  · have beyond : g.size ≤ i := Nat.le_of_not_lt inside
    rw [node_of_le beyond, node_of_le (by rwa [size_orphans])]
    rfl

theorem orphans_set (g : Graph) (i : NodeId) (n : Node) :
    (g.set i n).orphans = g.orphans.set i (n.withParent none) := by
  simp [orphans, set]

theorem orphans_push (g : Graph) (n : Node) :
    (g.push n).orphans = g.orphans.push (n.withParent none) := by
  simp [orphans, push]

theorem node_detach (nodes : List NodeId) (g : Graph) (i : NodeId) :
    (g.detach nodes).size = g.size ∧
      (g.detach nodes).node i = if i ∈ nodes then (g.node i).withParent none else g.node i := by
  induction nodes generalizing g with
  | nil => exact ⟨rfl, rfl⟩
  | cons j rest ih =>
    obtain ⟨size, node⟩ := ih (g.set j { g.node j with parent := none })
    refine ⟨size.trans (size_set _ _ _), node.trans ?_⟩
    by_cases here : j = i
    · subst here
      by_cases inside : j < g.size
      · rw [node_set_self inside, if_pos List.mem_cons_self]
        exact ite_self _
      · have beyond : g.size ≤ j := Nat.le_of_not_lt inside
        rw [node_of_le (by rwa [size_set]), node_of_le beyond, if_pos List.mem_cons_self]
        exact ite_self _
    · rw [node_set_ne here]
      simp only [List.mem_cons, Ne.symm here, false_or]

theorem detach_range (g : Graph) : g.detach (List.range g.size) = g.orphans := by
  obtain ⟨size, _⟩ := node_detach (List.range g.size) g 0
  refine ext_node (size.trans (size_orphans g).symm) fun i inside => ?_
  rw [size] at inside
  rw [(node_detach (List.range g.size) g i).2, if_pos (List.mem_range.mpr inside), node_orphans]

/-- A node of the longer graph is an old one or the new one. -/
theorem node_push_or (g : Graph) (n : Node) (i : NodeId) :
    (g.push n).node i = g.node i ∨ (g.push n).node i = n := by
  rcases Nat.lt_trichotomy i g.size with old | rfl | beyond
  · exact .inl (node_push_of_lt old n)
  · exact .inr (node_push_self g n)
  · have outside : (g.push n).size ≤ i := by rwa [size_push]
    exact .inl (by rw [node_of_le outside, node_of_le (Nat.le_of_lt beyond)])

theorem lt_size_of_child (child : s ∈ (g.node i).children) : i < g.size := by
  by_contra outside
  rw [node_of_le (Nat.le_of_not_lt outside)] at child
  cases child

theorem lt_size_of_parent {p : NodeId} (parent : p ∈ (g.node i).parent) : i < g.size := by
  by_contra outside
  rw [node_of_le (Nat.le_of_not_lt outside)] at parent
  cases parent

/-- No node leads back to itself. -/
def Acyclic (g : Graph) : Prop := ∀ i j, (g.node i).LeadsTo j → ¬ g.Reaches j i

theorem acyclic_of_forward (forward : ∀ i < g.size, ∀ v ∈ (g.node i).successors, i < v.node) :
    g.Acyclic := by
  have ahead {i j : NodeId} (leads : g.Leads i j) : i < j := by
    obtain ⟨v, listed, rfl⟩ := leads
    by_cases inside : i < g.size
    · exact forward i inside v listed
    · rw [successors_of_le (Nat.le_of_not_lt inside)] at listed
      cases listed
  intro i j leads reaches
  have back : j ≤ i := by
    clear leads
    induction reaches with
    | refl => exact Nat.le_refl _
    | tail _ edge ih => exact Nat.le_trans ih (Nat.le_of_lt (ahead edge))
  exact Nat.not_lt.mpr back (ahead leads)

/-- Fewer edges make no new ways. -/
theorem Acyclic.mono (acyclic : g.Acyclic)
    (fewer : ∀ i j, (h.node i).LeadsTo j → (g.node i).LeadsTo j) : h.Acyclic :=
  fun i j leads reaches => acyclic i j (fewer i j leads)
    (Relation.ReflTransGen.mono (fun i j edge => fewer i j edge) _ _ reaches)

theorem ancestor_of_none (top : (g.node i).parent = none) : g.ancestor fuel i = i := by
  cases fuel with
  | zero => rfl
  | succ fuel => rw [ancestor, top]

theorem mem_collectAll {below : List NodeId → Subschema → Definitions × List NodeId}
    {children : List Subschema} {start : Definitions × List NodeId}
    (listed : e ∈ (collectAll below children start).1) :
    e ∈ start.1 ∨ ∃ s ∈ children, ∃ seen, e ∈ (below seen s).1 := by
  induction children generalizing start with
  | nil => exact .inl listed
  | cons s rest ih =>
    rcases ih listed with merged | ⟨s', child, seen, here⟩
    · rcases Entries.mem_merge merged with new | old
      · exact .inr ⟨s, List.mem_cons_self, _, new⟩
      · exact .inl old
    · exact .inr ⟨s', List.mem_cons_of_mem _ child, seen, here⟩

/-- A definition that is collected below a node is one of a node that is reached from there. -/
theorem mem_collectBelow : ∀ (fuel : Nat) (seen : List NodeId) (s : Subschema),
    e ∈ (g.collectBelow fuel seen s).1 →
      ∃ i j, s = .node i ∧ g.Reaches i j ∧ e ∈ (g.node j).definitions.getD [] := by
  intro fuel
  induction fuel with
  | zero => exact fun _ _ listed => absurd listed List.not_mem_nil
  | succ fuel ih =>
    intro seen s listed
    cases s with
    | bool allowed => cases listed
    | bare v => cases listed
    | node i =>
      rw [collectBelow_node] at listed
      split at listed
      · cases listed
      · rcases mem_collectAll listed with own | ⟨_, child, _, here⟩
        · exact ⟨i, i, rfl, .refl, own⟩
        · obtain ⟨j, k, rfl, reaches, defined⟩ := ih _ _ here
          exact ⟨i, k, rfl, .head (Node.leadsTo_iff.mpr child) reaches, defined⟩

theorem Acyclic.keyOf_eq_none (acyclic : g.Acyclic) (i : NodeId) :
    (g.definitions i).keyOf i = none := by
  rw [Definitions.keyOf_eq_none_iff]
  intro key listed
  obtain ⟨_, j, ⟨⟩, reaches, defined⟩ := mem_collectBelow _ _ _ listed
  exact acyclic j i (Node.leadsTo_iff.mpr (Node.definition_mem_children defined)) reaches

/-- Collection looks at children and definitions only. -/
theorem collectBelow_congr (closed : g.Closed)
    (same : ∀ i < g.size, (h.node i).children = (g.node i).children ∧
      (h.node i).definitions = (g.node i).definitions) :
    ∀ (fuel : Nat) (seen : List NodeId) (s : Subschema), s.Below g.size →
      h.collectBelow fuel seen s = g.collectBelow fuel seen s := by
  intro fuel
  induction fuel with
  | zero => exact fun _ _ _ => rfl
  | succ fuel ih =>
    intro seen s below
    cases s with
    | bool allowed => rfl
    | bare v => rfl
    | node i =>
      obtain ⟨children, definitions⟩ := same i below
      rw [collectBelow_node, collectBelow_node, children, definitions]
      split
      · rfl
      · exact collectAll_congr (g := g) (subset_collectBelow fuel)
          (fun s child seen _ => ih seen s (closed i below s child)) _ (Nat.le_refl _)

theorem definitions_congr (closed : g.Closed) (more : g.size ≤ h.size)
    (same : ∀ i < g.size, (h.node i).children = (g.node i).children ∧
      (h.node i).definitions = (g.node i).definitions) (inside : i < g.size) :
    h.definitions i = g.definitions i := by
  rw [definitions_eq closed inside more, definitions,
    collectBelow_congr closed same h.size [] (.node i) inside]

end Graph
end LinkedSchema
