import LinkedSchema.Proofs.Normalize.Edges
import LinkedSchema.Proofs.Normalize.Renumbering
import LinkedSchema.Proofs.Schema.Hosting
/-! Normalization of a graph that hosts another one. From a first node that leads to nothing but the
root of the guests, the guests are normalized as they are by themselves. -/
namespace LinkedSchema

variable {g g' h : Graph} {n m : Node} {r i j : NodeId} {options : Options}
  {fileName : Option String} {rule : Rule} {rules : List Rule}

theorem Node.leadsTo_renumber {f : NodeId → NodeId} {p : Option NodeId} :
    (n.renumber f p).LeadsTo j ↔ ∃ k, n.LeadsTo k ∧ f k = j := by
  simp only [LeadsTo, successors_renumber, List.mem_map, Visit.renumber]
  constructor
  · rintro ⟨_, ⟨v, listed, rfl⟩, rfl⟩
    exact ⟨v.node, ⟨v, listed, rfl⟩, rfl⟩
  · rintro ⟨_, ⟨v, listed, rfl⟩, rfl⟩
    exact ⟨_, ⟨v, listed, rfl⟩, rfl⟩

theorem Node.Echoes.leadsTo {f : NodeId → NodeId} (echoes : m.Echoes f n) :
    m.LeadsTo j ↔ ∃ k, n.LeadsTo k ∧ f k = j := by
  obtain ⟨p, rfl⟩ := echoes
  exact leadsTo_renumber

/-- What a rule makes of a node, it makes of the node with other numbers too. -/
theorem Rule.Renumbers.echoes {k : Node} {f : NodeId → NodeId} (renumbers : rule.Renumbers)
    (echoes : m.Echoes f n) (made : rule.apply options n = .ok k) :
    ∃ k', rule.apply options m = .ok k' ∧ k'.Echoes f k := by
  obtain ⟨p, rfl⟩ := echoes
  refine ⟨k.renumber f p, ?_, p, rfl⟩
  rw [renumbers options n f p, made]
  rfl

namespace Graph

/-- A rule does the same to the guests if the host's own node leads to their root, before and after,
and to nothing else. -/
theorem Hosts.applyRule (hosts : h.Hosts g) (renumbers : rule.Renumbers)
    (run : applyRule rule options fileName r g = .ok () g')
    (made : rule.apply options (h.node 0) = .ok m) (leads : m.LeadsTo (r + 1))
    (only : ∀ j, m.LeadsTo j → j = r + 1) :
    ∃ h', Graph.applyRule rule options fileName 0 h = .ok () h' ∧ h'.node 0 = m ∧ h'.Hosts g' := by
  obtain ⟨size, edited, kept⟩ := applyRule_ok run
  have guest (i : NodeId) (below : g'.Below r i) :
      ∃ k, rule.apply options (h.node (i + 1)) = .ok k ∧ k.Echoes (· + 1) (g'.node i) :=
    renumbers.echoes (hosts.node i) (edited i below)
  let reach : NodeId → Prop := fun j => j = 0 ∨ ∃ i, j = i + 1 ∧ g'.Reaches r i
  have editable : ∀ j, reach j → j < h.size → ∃ k, rule.apply options (h.node j) = .ok k ∧
      ∀ j, k.LeadsTo j → reach j := by
    rintro _ (rfl | ⟨i, rfl, reaches⟩) inside
    · exact ⟨m, made, fun j edge => .inr ⟨r, only j edge, .refl⟩⟩
    · obtain ⟨k, made, echoes⟩ := guest i ⟨size.symm ▸ hosts.lt_size.mp inside, reaches⟩
      refine ⟨k, made, fun j edge => ?_⟩
      obtain ⟨j, edge, next⟩ := echoes.leadsTo.mp edge
      exact .inr ⟨j, next.symm, reaches.tail edge⟩
  obtain ⟨h', ran, size', back, edited', kept'⟩ :=
    applyRule_within rule fileName reach (.inl rfl) editable
  have first : h'.node 0 = m := by
    have same := edited' 0 ⟨size'.symm ▸ hosts.inside, .refl⟩
    rw [made, Except.ok.injEq] at same
    exact same.symm
  have there (i : NodeId) : i + 1 < h'.size ↔ i < g'.size := by rw [size', size, hosts.lt_size]
  have same (i : NodeId) (below : g'.Below r i) (reaches : h'.Reaches 0 (i + 1)) :
      (h'.node (i + 1)).Echoes (· + 1) (g'.node i) := by
    obtain ⟨k, made, echoes⟩ := guest i below
    rw [edited' _ ⟨(there i).mpr below.1, reaches⟩, Except.ok.injEq] at made
    exact made ▸ echoes
  have onward (i : NodeId) (reaches : g'.Reaches r i) : h'.Reaches 0 (i + 1) := by
    induction reaches with
    | refl => exact .single (first.symm ▸ leads : (h'.node 0).LeadsTo (r + 1))
    | @tail k j walked edge ih =>
      have echoes := same k ⟨lt_size_of_leadsTo edge, walked⟩ ih
      exact ih.tail (echoes.leadsTo.mpr ⟨j, edge, rfl⟩ : (h'.node (k + 1)).LeadsTo (j + 1))
  refine ⟨h', ran, first, by rw [size', size, hosts.size], fun i => ?_⟩
  by_cases below : g'.Below r i
  · exact same i below (onward i below.2)
  · rw [kept i below, kept' (i + 1) ?_]
    · exact hosts.node i
    · rintro ⟨inside, reaches⟩
      rcases back _ reaches with first | ⟨k, next, reaches⟩
      · exact absurd first (Nat.succ_ne_zero i)
      · cases next
        exact below ⟨(there i).mp inside, reaches⟩

/-- Where the first node leads nowhere, nothing else is walked to. -/
theorem applyRule_alone (inside : 0 < h.size) (made : rule.apply options (h.node 0) = .ok m)
    (none : ∀ j, ¬ m.LeadsTo j) : ∃ h', applyRule rule options fileName 0 h = .ok () h' ∧
      h'.node 0 = m ∧ 0 < h'.size := by
  have editable : ∀ i, i = 0 → i < h.size → ∃ k, rule.apply options (h.node i) = .ok k ∧
      ∀ j, k.LeadsTo j → j = 0 := by
    rintro _ rfl _
    exact ⟨m, made, fun j edge => (none j edge).elim⟩
  obtain ⟨h', run, size, _, edited, _⟩ := applyRule_within rule fileName (· = 0) rfl editable
  have same := edited 0 ⟨size.symm ▸ inside, .refl⟩
  rw [made, Except.ok.injEq] at same
  exact ⟨h', run, same.symm, size.symm ▸ inside⟩

/-- After a run of rules the first node is what a pass makes of it, and the guests are what they
become by themselves, unless the first node no longer leads to them. -/
theorem applyRules_hosts (shrink : ∀ rule ∈ rules, rule.Shrinks)
    (renumber : ∀ rule ∈ rules, rule.Renumbers)
    (run : applyRules rules options fileName r g = .ok () g') (inside : 0 < h.size)
    (hosts : (h.node 0).LeadsTo (r + 1) → h.Hosts g)
    (only : ∀ j, (h.node 0).LeadsTo j → j = r + 1)
    (pass : Rule.pass rules options (h.node 0) = .ok m) :
    ∃ h', applyRules rules options fileName 0 h = .ok () h' ∧ 0 < h'.size ∧ h'.node 0 = m ∧
      (m.LeadsTo (r + 1) → h'.Hosts g') := by
  induction rules generalizing g h with
  | nil =>
    cases run
    cases pass
    exact ⟨h, rfl, inside, rfl, hosts⟩
  | cons rule rules ih =>
    rw [applyRules_cons] at run
    split at run
    · rename_i k first
      rw [Rule.pass_cons] at pass
      cases made : rule.apply options (h.node 0) with
      | error e =>
        rw [made] at pass
        cases pass
      | ok n =>
        rw [made] at pass
        have fewer := shrink rule List.mem_cons_self options _ _ made
        have onward : ∀ j, n.LeadsTo j → j = r + 1 := fun j edge => only j (fewer j edge)
        have step : ∃ h', applyRule rule options fileName 0 h = .ok () h' ∧ 0 < h'.size ∧
            h'.node 0 = n ∧ (n.LeadsTo (r + 1) → h'.Hosts k) := by
          by_cases leads : n.LeadsTo (r + 1)
          · obtain ⟨h', ran, first, hosts'⟩ := (hosts (fewer _ leads)).applyRule
              (renumber rule List.mem_cons_self) first made leads onward
            exact ⟨h', ran, hosts'.inside, first, fun _ => hosts'⟩
          · have none : ∀ j, ¬ n.LeadsTo j := fun j edge => leads (onward j edge ▸ edge)
            obtain ⟨h', ran, first, inside'⟩ := applyRule_alone inside made none
            exact ⟨h', ran, inside', first, fun edge => (none _ edge).elim⟩
        obtain ⟨h', ran, inside', rfl, hosts'⟩ := step
        obtain ⟨h'', ran', rest⟩ := ih
          (fun rule listed => shrink rule (List.mem_cons_of_mem _ listed))
          (fun rule listed => renumber rule (List.mem_cons_of_mem _ listed)) run inside' hosts'
          onward pass
        refine ⟨h'', ?_, rest⟩
        rw [applyRules_cons, ran]
        exact ran'
    · cases run

theorem normalize_hosts (run : normalize options fileName r g = .ok () g') (inside : 0 < h.size)
    (hosts : (h.node 0).LeadsTo (r + 1) → h.Hosts g)
    (only : ∀ j, (h.node 0).LeadsTo j → j = r + 1)
    (pass : Rule.pass Rule.all options (h.node 0) = .ok m) :
    ∃ h', normalize options fileName 0 h = .ok () h' ∧ 0 < h'.size ∧ h'.node 0 = m ∧
      (m.LeadsTo (r + 1) → h'.Hosts g') :=
  applyRules_hosts Rule.all_shrink Rule.all_renumber run inside hosts only pass

end Graph
end LinkedSchema
