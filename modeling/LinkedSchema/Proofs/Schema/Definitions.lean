import LinkedSchema.Schema.Definitions
import Mathlib.Data.List.Perm.Subperm
/-! The collection of definitions is never cut short: every step down meets a new node, and there
are only so many. -/
namespace LinkedSchema

/-- A schema that is no reference to a node, or one to a node of a graph of that size. -/
def Subschema.Below (size : Nat) : Subschema → Prop
  | .node i => i < size
  | _ => True

instance (size : Nat) : (s : Subschema) → Decidable (s.Below size)
  | .node i => inferInstanceAs (Decidable (i < size))
  | .bool _ | .bare _ => .isTrue trivial

namespace Node

variable {n : Node}

theorem property_mem_children {e : String × Subschema} (h : e ∈ n.properties.getD []) :
    e.2 ∈ n.children := by
  simp only [children, List.mem_append]
  grind

theorem pattern_mem_children {e : String × Subschema} (h : e ∈ n.patternProperties.getD []) :
    e.2 ∈ n.children := by
  simp only [children, List.mem_append]
  grind

theorem definition_mem_children {e : String × Subschema} (h : e ∈ n.definitions.getD []) :
    e.2 ∈ n.children := by
  simp only [children, List.mem_append]
  grind

end Node

namespace Graph

variable {g : Graph}

/-- Every edge of the graph leads to one of its nodes. -/
def Closed (g : Graph) : Prop := ∀ i < g.size, ∀ s ∈ (g.node i).children, s.Below g.size

instance (g : Graph) : Decidable g.Closed :=
  inferInstanceAs (Decidable (∀ i < g.size, ∀ s ∈ (g.node i).children, s.Below g.size))

/-- The nodes that are not seen yet. -/
def unseen (g : Graph) (seen : List NodeId) : List NodeId :=
  (List.range g.size).filter fun i => !seen.contains i

theorem unseen_subset {seen more : List NodeId} (grown : seen ⊆ more) :
    (g.unseen more).length ≤ (g.unseen seen).length := by
  refine (List.subperm_of_subset (List.nodup_range.filter _) ?_).length_le
  intro i hi
  obtain ⟨inside, new⟩ := List.mem_filter.mp hi
  refine List.mem_filter.mpr ⟨inside, ?_⟩
  have unmet : i ∉ more := by simpa using new
  simpa using fun old => unmet (grown old)

theorem unseen_cons_lt {seen : List NodeId} {i : NodeId} (inside : i < g.size)
    (new : i ∉ seen) : (g.unseen (i :: seen)).length < (g.unseen seen).length := by
  have once : (i :: g.unseen (i :: seen)).Nodup := by
    refine List.nodup_cons.mpr ⟨?_, List.nodup_range.filter _⟩
    simp [unseen]
  have among : i :: g.unseen (i :: seen) ⊆ g.unseen seen := by
    intro j hj
    rcases List.mem_cons.mp hj with rfl | old
    · simpa [unseen] using ⟨inside, new⟩
    · simp only [unseen, List.mem_filter] at old ⊢
      exact ⟨old.1, by simp at old; simpa using old.2.2⟩
  have fewer := (List.subperm_of_subset once among).length_le
  rw [List.length_cons] at fewer
  exact fewer

/-- Children one after the other, with what each of them is gone through by. -/
def collectAll (below : List NodeId → Subschema → Definitions × List NodeId)
    (children : List Subschema) (start : Definitions × List NodeId) : Definitions × List NodeId :=
  children.foldl (fun (found, seen) child =>
    let (more, seen) := below seen child
    (found.merge more, seen)) start

theorem collectBelow_node {fuel : Nat} {seen : List NodeId} {i : NodeId} :
    g.collectBelow (fuel + 1) seen (.node i) =
      if seen.contains i then ([], seen)
      else collectAll (g.collectBelow fuel) (g.node i).children
        ((g.node i).definitions.getD [], i :: seen) := rfl

theorem subset_collectAll {below : List NodeId → Subschema → Definitions × List NodeId}
    (grows : ∀ seen s, seen ⊆ (below seen s).2) (children : List Subschema)
    (start : Definitions × List NodeId) : start.2 ⊆ (collectAll below children start).2 := by
  induction children generalizing start with
  | nil => exact List.Subset.refl _
  | cons s rest ih =>
    have tail := ih (start.1.merge (below start.2 s).1, (below start.2 s).2)
    exact List.Subset.trans (grows start.2 s) tail

theorem subset_collectBelow : ∀ (fuel : Nat) (seen : List NodeId) (s : Subschema),
    seen ⊆ (g.collectBelow fuel seen s).2 := by
  intro fuel
  induction fuel with
  | zero => exact fun _ _ => List.Subset.refl _
  | succ fuel ih =>
    intro seen s
    cases s with
    | bool b => exact List.Subset.refl _
    | bare v => exact List.Subset.refl _
    | node i =>
      rw [collectBelow_node]
      split
      · exact List.Subset.refl _
      · have all := subset_collectAll ih (g.node i).children
          ((g.node i).definitions.getD [], i :: seen)
        exact List.Subset.trans (List.subset_cons_self i seen) all

/-- Two ways to go through children agree if they do so while enough nodes have been seen. -/
theorem collectAll_congr {below other : List NodeId → Subschema → Definitions × List NodeId}
    {fuel : Nat} (grows : ∀ seen s, seen ⊆ (below seen s).2) {children : List Subschema}
    (agree : ∀ s ∈ children, ∀ seen, (g.unseen seen).length ≤ fuel → below seen s = other seen s)
    (start : Definitions × List NodeId) (few : (g.unseen start.2).length ≤ fuel) :
    collectAll below children start = collectAll other children start := by
  induction children generalizing start with
  | nil => rfl
  | cons s rest ih =>
    have head := agree s List.mem_cons_self start.2 few
    have fewer := Nat.le_trans (g.unseen_subset (grows start.2 s)) few
    have tail := ih (fun s h => agree s (List.mem_cons_of_mem _ h))
      (start.1.merge (below start.2 s).1, (below start.2 s).2) fewer
    unfold collectAll at tail ⊢
    rw [List.foldl_cons, List.foldl_cons, tail, head]

/-- As much fuel as there are nodes to be seen is enough. -/
theorem collectBelow_enough (closed : g.Closed) : ∀ (fuel more : Nat) (seen : List NodeId)
    (s : Subschema), s.Below g.size → (g.unseen seen).length ≤ fuel → fuel ≤ more →
    g.collectBelow fuel seen s = g.collectBelow more seen s := by
  intro fuel
  induction fuel with
  | zero =>
    intro more seen s below few le
    cases more with
    | zero => rfl
    | succ more =>
      cases s with
      | bool b => rfl
      | bare v => rfl
      | node i =>
        have known : i ∈ seen := by
          by_contra new
          exact Nat.not_lt_zero _ (Nat.lt_of_lt_of_le (unseen_cons_lt below new) few)
        rw [collectBelow_node, if_pos (by simpa using known)]
        rfl
  | succ fuel ih =>
    intro more seen s below few le
    cases more with
    | zero => exact absurd le (Nat.not_succ_le_zero fuel)
    | succ more =>
      cases s with
      | bool b => rfl
      | bare v => rfl
      | node i =>
        rw [collectBelow_node, collectBelow_node]
        by_cases known : i ∈ seen
        · rw [if_pos (by simpa using known), if_pos (by simpa using known)]
        · rw [if_neg (by simpa using known), if_neg (by simpa using known)]
          have fewer := Nat.lt_of_lt_of_le (unseen_cons_lt below known) few
          exact collectAll_congr (subset_collectBelow fuel)
            (fun s h seen few => ih more seen s (closed i below s h) few (Nat.le_of_succ_le_succ le))
            _ (Nat.le_of_lt_succ fewer)

/-- The definitions below a node do not depend on the fuel that the collection is given. -/
theorem definitions_eq (closed : g.Closed) {i : NodeId} (inside : i < g.size) {fuel : Nat}
    (enough : g.size ≤ fuel) : g.definitions i = (g.collectBelow fuel [] (.node i)).1 := by
  have few : (g.unseen []).length ≤ g.size := by
    simp [unseen]
  rw [definitions, collectBelow_enough closed g.size fuel [] (.node i) inside few enough]

end Graph
end LinkedSchema
