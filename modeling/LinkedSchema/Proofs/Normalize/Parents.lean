import LinkedSchema.Proofs.Normalize.Edges
import LinkedSchema.Proofs.Normalize.Passes
import LinkedSchema.Proofs.Normalize.Renumbering
/-! Rules neither see nor change parent links. The normalization of a graph without them is the
same, step by step, as that of the graph with them. -/
namespace LinkedSchema

variable {g h : Graph} {n m : Node} {p : Option NodeId} {i j root : NodeId} {options : Options}
  {fileName : Option String} {rule : Rule} {rules : List Rule}

/-- A rule does the same to a node whatever the parent of the node is. -/
def Rule.Blind (rule : Rule) : Prop := ∀ (options : Options) (n : Node) (p : Option NodeId),
  rule.apply options (n.withParent p) = (rule.apply options n).map (·.withParent p)

namespace Rule

/-- What a blind rule makes of a node has the parent of the node. -/
theorem Blind.parent (blind : rule.Blind) (made : rule.apply options n = .ok m) :
    m.parent = n.parent := by
  have same : rule.apply options n = (rule.apply options n).map (·.withParent n.parent) :=
    blind options n n.parent
  rw [made] at same
  have kept : m = m.withParent n.parent := Except.ok.inj same
  rw [kept]
  rfl

theorem Renumbers.blind (renumbers : rule.Renumbers) : rule.Blind := by
  intro options n p
  simpa only [← withParent_eq_renumber] using renumbers options n id p

theorem all_blind : ∀ rule ∈ all, rule.Blind := fun rule listed => (all_renumber rule listed).blind

end Rule

namespace Graph

/-- The same outcome, but no parent links are left behind. -/
def bereft {ε α : Type} : EStateM.Result ε Graph α → EStateM.Result ε Graph α
  | .ok a g => .ok a g.orphans
  | .error e g => .error e g.orphans

theorem walkFrom_orphans {ε : Type} {edit : Visit → Node → Except ε Node}
    (blind : ∀ v n, edit v (n.withParent none) = (edit v n).map (·.withParent none)) :
    ∀ (fuel : Nat) (pending met : List Visit) (g : Graph),
      walkFrom edit fuel pending met g.orphans = bereft (walkFrom edit fuel pending met g) := by
  intro fuel
  induction fuel with
  | zero => exact fun _ _ _ => rfl
  | succ fuel ih =>
    intro pending met g
    have idle : g.orphans.isIdle met = g.isIdle met := by
      funext v
      rw [isIdle, isIdle, size_orphans]
    rw [walkFrom, walkFrom, idle]
    cases pending.dropWhile (g.isIdle met) with
    | nil => rfl
    | cons v rest =>
      simp only [node_orphans, blind]
      cases edit v (g.node v.node) with
      | error e => rfl
      | ok n =>
        have onward := ih (n.successors ++ rest) (v :: met) (g.set v.node n)
        rwa [orphans_set] at onward

theorem applyRule_orphans (blind : rule.Blind) (g : Graph) :
    applyRule rule options fileName root g.orphans =
      bereft (applyRule rule options fileName root g) := by
  have walked : walk (fun _ n => rule.apply options n) root g.orphans =
      bereft (walk (fun _ n => rule.apply options n) root g) := by
    rw [walk, walk, size_orphans]
    exact walkFrom_orphans (fun _ n => blind options n none) _ _ _ _
  rw [applyRule, applyRule, walked]
  cases walk (fun _ n => rule.apply options n) root g <;> rfl

theorem applyRules_orphans (blind : ∀ rule ∈ rules, rule.Blind) (g : Graph) :
    applyRules rules options fileName root g.orphans =
      bereft (applyRules rules options fileName root g) := by
  induction rules generalizing g with
  | nil => rfl
  | cons rule rules ih =>
    rw [applyRules_cons, applyRules_cons, applyRule_orphans (blind rule List.mem_cons_self)]
    cases applyRule rule options fileName root g with
    | error e h => rfl
    | ok _ h => exact ih (fun r hr => blind r (List.mem_cons_of_mem _ hr)) h

theorem normalize_orphans (g : Graph) :
    normalize options fileName root g.orphans = bereft (normalize options fileName root g) :=
  applyRules_orphans Rule.all_blind g

/-- Every node keeps its parent and gets no new edges, whether the rules come to it or not. -/
theorem applyRules_keeps (blind : ∀ rule ∈ rules, rule.Blind)
    (shrink : ∀ rule ∈ rules, rule.Shrinks)
    (run : applyRules rules options fileName root g = .ok () h) (i : NodeId) :
    (h.node i).parent = (g.node i).parent ∧
      ∀ j, (h.node i).LeadsTo j → (g.node i).LeadsTo j := by
  induction rules generalizing g with
  | nil =>
    cases run
    exact ⟨rfl, fun _ leads => leads⟩
  | cons rule rules ih =>
    rw [applyRules_cons] at run
    split at run
    · rename_i k first
      obtain ⟨parent, fewer⟩ := ih (fun r hr => blind r (List.mem_cons_of_mem _ hr))
        (fun r hr => shrink r (List.mem_cons_of_mem _ hr)) run
      obtain ⟨_, edited, kept⟩ := applyRule_ok first
      by_cases below : k.Below root i
      · have made := edited i below
        refine ⟨parent.trans ((blind rule List.mem_cons_self).parent made), fun j leads => ?_⟩
        exact shrink rule List.mem_cons_self options _ _ made j (fewer j leads)
      · rw [kept i below] at parent fewer
        exact ⟨parent, fewer⟩
    · cases run

end Graph
end LinkedSchema
