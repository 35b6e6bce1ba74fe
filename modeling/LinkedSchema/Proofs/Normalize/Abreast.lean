import LinkedSchema.Proofs.Normalize.Local
import LinkedSchema.Proofs.Schema.Accord
/-! Normalizations of two graphs side by side. Where a rule does alike to related nodes, it walks
through both graphs in the same order, and leaves related nodes behind or fails on both. -/
namespace LinkedSchema

variable {good : NodeId → Prop} {N : Node → Node → Prop} {g h : Graph} {root i : NodeId}
  {n m : Node} {options : Options} {fileName : Option String} {rule : Rule} {rules : List Rule}

/-- Graphs of as many nodes, with related nodes in some places that lead to one another only. -/
structure Graph.Abreast (good : NodeId → Prop) (N : Node → Node → Prop) (g h : Graph) : Prop where
  size : h.size = g.size
  node : ∀ i, good i → N (g.node i) (h.node i)
  edges : ∀ i, good i → ∀ j, (g.node i).LeadsTo j → good j

/-- Related results, or two failures. -/
inductive Alongside {ε α β : Type} (R : α → β → Prop) : Except ε α → Except ε β → Prop where
  | ok {a : α} {b : β} : R a b → Alongside R (.ok a) (.ok b)
  | error (e f : ε) : Alongside R (.error e) (.error f)

/-- A rule makes related nodes of related nodes, or fails on both. -/
def Rule.Carries (rule : Rule) (options : Options) (N : Node → Node → Prop) : Prop :=
  ∀ n m, N n m → Alongside N (rule.apply options n) (rule.apply options m)

namespace Graph

/-- Both runs end well, with graphs abreast, or both fail. -/
inductive InStep {ε α : Type} (good : NodeId → Prop) (N : Node → Node → Prop) :
    EStateM.Result ε Graph α → EStateM.Result ε Graph α → Prop where
  | ok (a : α) {g h : Graph} : g.Abreast good N h → InStep good N (.ok a g) (.ok a h)
  | error (e f : ε) (g h : Graph) : InStep good N (.error e g) (.error f h)

namespace Abreast

theorem set (abreast : g.Abreast good N h) (related : N n m)
    (edges : ∀ j, n.LeadsTo j → good j) (i : NodeId) :
    (g.set i n).Abreast good N (h.set i m) where
  size := by rw [size_set, size_set, abreast.size]
  node j fine := by
    rcases node_set_both abreast.size n m i j with ⟨left, right⟩ | ⟨_, left, right⟩ <;>
      rw [left, right]
    · exact abreast.node j fine
    · exact related
  edges j fine k leads := by
    rcases node_set_both abreast.size n m i j with ⟨left, _⟩ | ⟨_, left, _⟩ <;> rw [left] at leads
    · exact abreast.edges j fine k leads
    · exact edges k leads

theorem good_of_reaches (abreast : g.Abreast good N h) (start : good root)
    (reaches : g.Reaches root i) : good i := by
  induction reaches with
  | refl => exact start
  | tail _ edge ih => exact abreast.edges _ ih _ edge

variable (same : ∀ n m, N n m → m.successors = n.successors)
include same

/-- In graphs abreast, the root leads to the same places. -/
theorem reaches_iff (abreast : g.Abreast good N h) (start : good root) :
    h.Reaches root i ↔ g.Reaches root i := by
  have fine {j : NodeId} : g.Reaches root j → good j := abreast.good_of_reaches start
  constructor
  · intro reaches
    induction reaches with
    | refl => exact .refl
    | @tail k j _ edge ih =>
      obtain ⟨v, listed, here⟩ := edge
      exact ih.tail ⟨v, same _ _ (abreast.node k (fine ih)) ▸ listed, here⟩
  · intro reaches
    induction reaches with
    | refl => exact .refl
    | @tail k j walked edge ih =>
      obtain ⟨v, listed, here⟩ := edge
      exact ih.tail ⟨v, (same _ _ (abreast.node k (fine walked))).symm ▸ listed, here⟩

theorem walkFrom {ε : Type} (edit : Visit → Node → Except ε Node)
    (carries : ∀ v n m, N n m → Alongside N (edit v n) (edit v m))
    (shrinks : ∀ v n m, edit v n = .ok m → ∀ i, m.LeadsTo i → n.LeadsTo i) :
    ∀ (fuel : Nat) (pending met : List Visit) (g h : Graph), g.Abreast good N h →
      (∀ v ∈ pending, good v.node) →
        InStep good N (walkFrom edit fuel pending met g) (walkFrom edit fuel pending met h) := by
  intro fuel
  induction fuel with
  | zero => exact fun _ met _ _ abreast _ => .ok met.reverse abreast
  | succ fuel ih =>
    intro pending met g h abreast ahead
    have idle : h.isIdle met = g.isIdle met := by
      funext v
      rw [isIdle, isIdle, abreast.size]
    rw [Graph.walkFrom, Graph.walkFrom, idle]
    cases left : pending.dropWhile (g.isIdle met) with
    | nil => exact .ok met.reverse abreast
    | cons v rest =>
      have remaining : ∀ w ∈ v :: rest, good w.node := fun w listed =>
        ahead w ((List.dropWhile_sublist _).subset (left ▸ listed))
      have here : good v.node := remaining v List.mem_cons_self
      have both := carries v _ _ (abreast.node v.node here)
      have fewer := shrinks v (g.node v.node)
      dsimp only
      generalize edit v (g.node v.node) = x, edit v (h.node v.node) = y at both fewer
      cases both with
      | error e f => exact .error _ _ g h
      | @ok n m related =>
        have edges : ∀ j, n.LeadsTo j → good j := fun j leads =>
          abreast.edges v.node here j (fewer n rfl j leads)
        dsimp only
        rw [same n m related]
        refine ih _ _ _ _ (abreast.set related edges v.node) fun w listed => ?_
        rcases List.mem_append.mp listed with edge | waiting
        · exact edges w.node ⟨w, edge, rfl⟩
        · exact remaining w (List.mem_cons_of_mem _ waiting)

variable (options fileName root) in
theorem applyRule (carries : rule.Carries options N) (shrinks : rule.Shrinks)
    (abreast : g.Abreast good N h) (start : good root) :
    InStep good N (applyRule rule options fileName root g)
      (applyRule rule options fileName root h) := by
  have both := walkFrom same (fun _ n => rule.apply options n) (fun _ => carries)
    (fun _ => shrinks options) g.size [⟨none, root⟩] [] g h abreast (by simpa using start)
  unfold Graph.applyRule walk
  rw [abreast.size]
  generalize Graph.walkFrom _ g.size [⟨none, root⟩] [] g = x,
    Graph.walkFrom _ g.size [⟨none, root⟩] [] h = y at both
  cases both with
  | ok _ abreast => exact .ok () abreast
  | error e f g h => exact .error _ _ g h

variable (options fileName root) in
/-- Rules that carry a relation of nodes with the same edges carry it from graph to graph. -/
theorem applyRules (carries : ∀ rule ∈ rules, rule.Carries options N)
    (shrink : ∀ rule ∈ rules, rule.Shrinks) (abreast : g.Abreast good N h) (start : good root) :
    InStep good N (applyRules rules options fileName root g)
      (applyRules rules options fileName root h) := by
  induction rules generalizing g h with
  | nil => exact .ok () abreast
  | cons rule rules ih =>
    rw [applyRules_cons, applyRules_cons]
    have first := abreast.applyRule root options fileName same (carries rule List.mem_cons_self)
      (shrink rule List.mem_cons_self) start
    generalize Graph.applyRule rule options fileName root g = x,
      Graph.applyRule rule options fileName root h = y at first
    cases first with
    | error e f g h => exact .error e f g h
    | ok _ abreast =>
      exact ih (fun r hr => carries r (List.mem_cons_of_mem _ hr))
        (fun r hr => shrink r (List.mem_cons_of_mem _ hr)) abreast

end Abreast
end Graph
end LinkedSchema
