import LinkedSchema.Proofs.Normalize.NormalForm
/-! Normalization is local: what becomes of a node is made of that node alone, though every rule
walks a graph that the rules before it have changed, and may change the edges ahead of it. -/
namespace LinkedSchema

variable {g h : Graph} {root i : NodeId} {options : Options} {fileName : Option String}
  {rule : Rule} {rules : List Rule}

namespace Graph

/-- A rule that adds no edges leads to no node that was out of reach. -/
theorem Below.of_applyRule (shrinks : rule.Shrinks)
    (run : applyRule rule options fileName root g = .ok () h) (below : h.Below root i) :
    g.Below root i := by
  obtain ⟨size, edited, _⟩ := applyRule_ok run
  refine ⟨size ▸ below.1, below.2.mono fun j below _ k edge => ?_⟩
  exact shrinks options _ _ (edited j below) k edge

theorem Below.of_applyRules (shrink : ∀ rule ∈ rules, rule.Shrinks)
    (run : applyRules rules options fileName root g = .ok () h) (below : h.Below root i) :
    g.Below root i := by
  obtain ⟨size, passed⟩ := applyRules_ok shrink run
  exact ⟨size ▸ below.1, (passed i below).1⟩

/-- Rules that add no edges do not touch what is out of reach when they begin. -/
theorem applyRules_kept (shrink : ∀ rule ∈ rules, rule.Shrinks)
    (run : applyRules rules options fileName root g = .ok () h) (apart : ¬ g.Below root i) :
    h.node i = g.node i := by
  induction rules generalizing g with
  | nil =>
    cases run
    rfl
  | cons rule rules ih =>
    rw [applyRules_cons] at run
    split at run
    · rename_i k first
      have shrinks := shrink rule List.mem_cons_self
      have apart' : ¬ k.Below root i := fun below => apart (below.of_applyRule shrinks first)
      obtain ⟨_, _, kept⟩ := applyRule_ok first
      rw [ih (fun r hr => shrink r (List.mem_cons_of_mem _ hr)) run apart', kept i apart']
    · cases run

/-- After a normalization, every node below the root was below it before and is what one pass of
the rules makes of it alone, and nodes that were not below the root are the same as before. There
are as many nodes as there were. -/
theorem normalize_local (run : normalize options fileName root g = .ok () h) :
    h.size = g.size ∧
    (∀ i, h.Below root i → g.Below root i ∧
      Rule.pass Rule.all options (g.node i) = .ok (h.node i)) ∧
    ∀ i, ¬ g.Below root i → h.node i = g.node i := by
  obtain ⟨size, passed⟩ := applyRules_ok Rule.all_shrink run
  refine ⟨size, fun i below => ⟨below.of_applyRules Rule.all_shrink run, (passed i below).2⟩, ?_⟩
  exact fun i apart => applyRules_kept Rule.all_shrink run apart

theorem normalize_tangled_local : ∃ h, normalize {} (some "t.json") 0 tangled = .ok () h ∧
    h.size = 4 ∧
    (∀ i, h.Below 0 i → tangled.Below 0 i ∧
      Rule.pass Rule.all {} (tangled.node i) = .ok (h.node i)) ∧
    ∀ i, ¬ tangled.Below 0 i → h.node i = tangled.node i := by
  obtain ⟨_, h, run⟩ := exists_of_succeeds
    (show succeeds (normalize {} (some "t.json") 0 tangled) = true by decide +kernel)
  exact ⟨h, run, normalize_local run⟩

end Graph
end LinkedSchema
