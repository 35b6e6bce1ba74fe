import LinkedSchema.Normalize.Pipeline
import LinkedSchema.Proofs.Schema.Walks
/-! What a sequence of rules does to a graph, node by node. -/
namespace LinkedSchema

variable {g h : Graph} {root i : NodeId} {options : Options} {fileName : Option String}
  {rule : Rule} {rules : List Rule} {n m : Node}

/-- Where the edges of a node lead. -/
def Node.LeadsTo (n : Node) (i : NodeId) : Prop := ∃ v ∈ n.successors, v.node = i

namespace Graph

/-- A node of the graph that a walk from the root comes to. -/
def Below (g : Graph) (root i : NodeId) : Prop := i < g.size ∧ g.Reaches root i

theorem ext_node (size : g.size = h.size) (same : ∀ i < g.size, g.node i = h.node i) : g = h := by
  obtain ⟨xs⟩ := g
  obtain ⟨ys⟩ := h
  have length : xs.size = ys.size := size
  congr 1
  refine Array.ext length fun i hx hy => ?_
  have here := same i hx
  simpa [node, Array.getD_eq_getD_getElem?, hx, hy] using here

theorem set_node_self (g : Graph) (i : NodeId) : g.set i (g.node i) = g := by
  refine ext_node (size_set _ _ _) fun j inside => ?_
  rw [size_set] at inside
  by_cases same : i = j
  · subst same
    rw [node_set_self inside]
  · rw [node_set_ne same]

theorem lt_size_of_leadsTo (leads : (g.node i).LeadsTo j) : i < g.size := by
  by_contra outside
  obtain ⟨v, listed, _⟩ := leads
  rw [successors_of_le (Nat.le_of_not_lt outside)] at listed
  cases listed

/-- What a root reaches, it reaches in a graph that has the edges on the way too. -/
theorem Reaches.mono
    (more : ∀ k, g.Below root k → h.Reaches root k → ∀ j, (g.node k).LeadsTo j → h.Leads k j)
    (reaches : g.Reaches root i) : h.Reaches root i := by
  induction reaches with
  | refl => exact .refl
  | @tail k j walked edge ih =>
    exact ih.tail (more k ⟨lt_size_of_leadsTo edge, walked⟩ ih j edge)

theorem applyRule_walks (run : applyRule rule options fileName root g = .ok () h) :
    ∃ visits, Walks (fun _ n => rule.apply options n) g [⟨none, root⟩] [] h visits := by
  unfold applyRule at run
  split at run
  · rename_i visits g' walked
    cases run
    exact ⟨visits, walks_of_walk walked⟩
  · cases run

theorem applyRule_of_walk {visits : List Visit}
    (run : walk (fun _ n => rule.apply options n) root g = .ok visits h) :
    applyRule rule options fileName root g = .ok () h := by
  unfold applyRule
  rw [run]

theorem applyRules_cons (g : Graph) :
    applyRules (rule :: rules) options fileName root g =
      match applyRule rule options fileName root g with
      | .ok _ g => applyRules rules options fileName root g
      | .error e g => .error e g := by
  show EStateM.bind (applyRule rule options fileName root)
    (fun _ => applyRules rules options fileName root) g = _
  unfold EStateM.bind
  cases applyRule rule options fileName root g <;> rfl

/-- One rule rewrites the nodes that the root leads to when it is done, and no others. -/
theorem applyRule_ok (run : applyRule rule options fileName root g = .ok () h) :
    h.size = g.size ∧
    (∀ i, h.Below root i → rule.apply options (g.node i) = .ok (h.node i)) ∧
    ∀ i, ¬ h.Below root i → h.node i = g.node i := by
  obtain ⟨visits, walks⟩ := applyRule_walks run
  have size := walks.size_eq
  refine ⟨size, ?_, ?_⟩
  · rintro i ⟨inside, reaches⟩
    obtain ⟨v, hv, rfl⟩ := walks.met_iff.mpr ⟨size ▸ inside, reaches⟩
    exact walks.edited v hv
  · intro i apart
    refine walks.kept fun met => apart ?_
    obtain ⟨inside, reaches⟩ := walks.met_iff.mp met
    exact ⟨size ▸ inside, reaches⟩

/-- A rule succeeds where it does for all nodes of a kind that it leaves leading to such nodes only,
and then it comes to nothing else. -/
theorem applyRule_within (rule : Rule) (fileName : Option String) {root : NodeId}
    (reach : NodeId → Prop) (start : reach root)
    (editable : ∀ i, reach i → i < h.size → ∃ n, rule.apply options (h.node i) = .ok n ∧
      ∀ j, n.LeadsTo j → reach j) :
    ∃ h', applyRule rule options fileName root h = .ok () h' ∧ h'.size = h.size ∧
      (∀ i, h'.Reaches root i → reach i) ∧
      (∀ i, h'.Below root i → rule.apply options (h.node i) = .ok (h'.node i)) ∧
      ∀ i, ¬ h'.Below root i → h'.node i = h.node i := by
  obtain ⟨visits, h', walked⟩ : ∃ visits h',
      walk (fun _ n => rule.apply options n) root h = .ok visits h' := by
    refine walk_ok start fun v here inside => ?_
    obtain ⟨n, made, onward⟩ := editable v.node here inside
    exact ⟨n, made, fun w listed => onward _ ⟨w, listed, rfl⟩⟩
  have run : applyRule rule options fileName root h = .ok () h' := applyRule_of_walk walked
  obtain ⟨size, edited, kept⟩ := applyRule_ok run
  refine ⟨h', run, size, fun i reaches => ?_, edited, kept⟩
  induction reaches with
  | refl => exact start
  | @tail k j walked edge ih =>
    have inside := lt_size_of_leadsTo edge
    obtain ⟨n, made, onward⟩ := editable k ih (size ▸ inside)
    rw [edited k ⟨inside, walked⟩, Except.ok.injEq] at made
    exact onward j (made ▸ edge)

end Graph

namespace Rule

/-- Rules that add no edges to a node. -/
def Shrinks (rule : Rule) : Prop :=
  ∀ (options : Options) (n m : Node), rule.apply options n = .ok m →
    ∀ i, m.LeadsTo i → n.LeadsTo i

/-- All the rules in order at one node. -/
def pass (rules : List Rule) (options : Options) (n : Node) : Except Defect Node :=
  rules.foldlM (fun n rule => rule.apply options n) n

/-- A pass over a node in which every step succeeds and keeps the edges. -/
def Steady (options : Options) : List Rule → Node → Node → Prop
  | [], n, m => m = n
  | rule :: rules, n, m => ∃ k, rule.apply options n = .ok k ∧ k.successors = n.successors ∧
    Steady options rules k m

theorem pass_cons : pass (rule :: rules) options n =
    (rule.apply options n).bind (pass rules options) := rfl

end Rule

namespace Graph

/-- After a run of rules that add no edges, every node below the root is what a pass of the rules
makes of it. -/
theorem applyRules_ok (shrink : ∀ rule ∈ rules, rule.Shrinks)
    (run : applyRules rules options fileName root g = .ok () h) :
    h.size = g.size ∧ ∀ i, h.Below root i →
      g.Reaches root i ∧ Rule.pass rules options (g.node i) = .ok (h.node i) := by
  induction rules generalizing g with
  | nil =>
    cases run
    exact ⟨rfl, fun i below => ⟨below.2, rfl⟩⟩
  | cons rule rules ih =>
    rw [applyRules_cons] at run
    split at run
    · rename_i k first
      obtain ⟨size, edited, _⟩ := applyRule_ok first
      obtain ⟨size', passed⟩ := ih (fun r hr => shrink r (List.mem_cons_of_mem _ hr)) run
      refine ⟨size'.trans size, fun i below => ?_⟩
      obtain ⟨reaches, pass⟩ := passed i below
      refine ⟨reaches.mono fun j below _ j' edge => ?_, ?_⟩
      · exact shrink rule List.mem_cons_self options _ _ (edited j below) j' edge
      · have inside : i < k.size := size' ▸ below.1
        rw [Rule.pass_cons, edited i ⟨inside, reaches⟩]
        exact pass
    · cases run

/-- A run of rules succeeds where all passes over the nodes below the root are steady, and ends in
what the passes make of the nodes. -/
theorem applyRules_steady {f : NodeId → Node}
    (steady : ∀ i, g.Below root i → Rule.Steady options rules (g.node i) (f i)) :
    ∃ h, applyRules rules options fileName root g = .ok () h ∧ h.size = g.size ∧
      (∀ i, g.Below root i → h.node i = f i) ∧ ∀ i, ¬ g.Below root i → h.node i = g.node i := by
  induction rules generalizing g with
  | nil => exact ⟨g, rfl, rfl, fun i below => (steady i below).symm, fun _ _ => rfl⟩
  | cons rule rules ih =>
    have editable : ∀ i, g.Reaches root i → i < g.size →
        ∃ n, rule.apply options (g.node i) = .ok n ∧ ∀ j, n.LeadsTo j → g.Reaches root j := by
      intro i reaches inside
      obtain ⟨n, made, same, _⟩ := steady i ⟨inside, reaches⟩
      exact ⟨n, made, fun j ⟨v, hv, here⟩ => reaches.tail ⟨v, same ▸ hv, here⟩⟩
    obtain ⟨k, first, size, reached, edited, kept⟩ :=
      applyRule_within rule fileName (g.Reaches root) .refl editable
    have back : ∀ i, k.Below root i → g.Below root i := fun i below =>
      ⟨size ▸ below.1, reached i below.2⟩
    -- The edges below the root are the same before and after.
    have edges : ∀ i, k.Below root i → (k.node i).successors = (g.node i).successors := by
      intro i below
      obtain ⟨n, made, same, _⟩ := steady i (back i below)
      rw [edited i below, Except.ok.injEq] at made
      rw [made, same]
    have onward : ∀ i, g.Below root i → k.Below root i := by
      intro i below
      refine ⟨size.symm ▸ below.1, below.2.mono fun j below reaches j' edge => ?_⟩
      obtain ⟨v, hv, here⟩ := edge
      exact ⟨v, edges j ⟨size.symm ▸ below.1, reaches⟩ ▸ hv, here⟩
    have rest : ∀ i, k.Below root i → Rule.Steady options rules (k.node i) (f i) := by
      intro i below
      obtain ⟨n, made, _, rest⟩ := steady i (back i below)
      rw [edited i below, Except.ok.injEq] at made
      rwa [made]
    obtain ⟨h, run, size', made, same⟩ := ih rest
    refine ⟨h, ?_, size'.trans size, fun i below => made i (onward i below), fun i apart => ?_⟩
    · rw [applyRules_cons, first]
      exact run
    · rw [same i fun below => apart (back i below), kept i fun below => apart (back i below)]

end Graph
end LinkedSchema
