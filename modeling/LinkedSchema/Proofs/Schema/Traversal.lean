import LinkedSchema.Proofs.Schema.Links
import Mathlib.Data.List.TakeWhile
/-! Walks that call back at every visit. The callback may change the node it is called for and may
go by anything, its own notes and the whole graph included; a walk whose edits depend on the node
alone is a special case. -/
namespace LinkedSchema
namespace Graph

/-- What is called at a visit. It sees the graph and what is noted so far, and says what becomes of
the visited node and what is noted from then on. -/
abbrev Callback (σ : Type) := Visit → Graph → σ → Node × σ

/-- Visits what is pending, as `walkFrom` does. -/
def traverseFrom {σ : Type} (callback : Callback σ) :
    Nat → List Visit → List Visit → Graph → σ → List Visit × Graph × σ
  | 0, _, done, g, s => (done.reverse, g, s)
  | fuel + 1, pending, done, g, s =>
    match pending.dropWhile (g.isIdle done) with
    | [] => (done.reverse, g, s)
    | v :: rest =>
      let (n, s) := callback v g s
      traverseFrom callback fuel (n.successors ++ rest) (v :: done) (g.set v.node n) s

def traverse {σ : Type} (callback : Callback σ) (root : NodeId) (g : Graph) (s : σ) :
    List Visit × Graph × σ :=
  traverseFrom callback g.size [⟨none, root⟩] [] g s

/-- What calls one after the other make of a graph and of the notes. -/
def callAll {σ : Type} (callback : Callback σ) (visits : List Visit) (start : Graph × σ) :
    Graph × σ :=
  visits.foldl (fun (g, s) v => let (n, s) := callback v g s; (g.set v.node n, s)) start

variable {σ ε : Type} {callback : Callback σ} {edit : Visit → Node → Except ε Node}
  {g final : Graph} {root : NodeId} {pending met new : List Visit} {s : σ}

/-- A walk is a depth-first search of the graph that it leaves behind. -/
theorem Walks.depthFirst (h : Walks edit g pending met final new) :
    DepthFirst final.edges Visit.node met (pending.filter fun v => decide (v.node < g.size))
      new := by
  induction h with
  | done => exact .done
  | @skip g _ v _ met _ idle _ ih =>
    by_cases inside : v.node < g.size
    · rw [List.filter_cons_of_pos (by simpa using inside)]
      obtain ⟨u, hu, same⟩ := isIdle_eq_true.mp idle inside
      exact .known (List.mem_map.mpr ⟨u, hu, same⟩) ih
    · rw [List.filter_cons_of_neg (by simpa using inside)]
      exact ih
  | @visit g final v n rest met new idle _ walks ih =>
    obtain ⟨unmet, inside⟩ := isIdle_eq_false.mp idle
    have here : final.node v.node = n := by
      rw [walks.kept fun ⟨u, hu, same⟩ => (walks.fresh u hu).1 ⟨v, List.mem_cons_self, same.symm⟩,
        node_set_self inside]
    have onward : final.edges v.node = n.successors.filter fun w => decide (w.node < g.size) := by
      rw [edges_eq, here, walks.size_eq, size_set]
    rw [List.filter_cons_of_pos (by simpa using inside)]
    rw [size_set, List.filter_append, ← onward] at ih
    refine .visit (fun again => unmet ?_) ih
    obtain ⟨u, hu, same⟩ := List.mem_map.mp again
    exact ⟨u, hu, same⟩

/-- With enough fuel a traversal is a walk whose edits are what the callback happened to make of
the nodes, since it is called for each node only once. -/
theorem walks_of_traverseFrom : ∀ (fuel : Nat) (pending met : List Visit) (g : Graph) (s : σ),
    g.Distinct met → g.size ≤ fuel + met.length → ∀ visits final last,
    traverseFrom callback fuel pending met g s = (visits, final, last) →
    ∃ new, visits = met.reverse ++ new ∧ callAll callback new (g, s) = (final, last) ∧
      Walks (fun v _ => (.ok (final.node v.node) : Except Empty Node)) g pending met final new := by
  intro fuel
  induction fuel with
  | zero =>
    intro pending met g s distinct enough visits final last run
    cases run
    have full : g.size ≤ met.length := by omega
    exact ⟨[], by simp, rfl, walks_idle fun v _ => isIdle_of_full distinct full v⟩
  | succ fuel ih =>
    intro pending met g s distinct enough visits final last run
    rw [traverseFrom] at run
    split at run
    · rename_i left
      cases run
      refine ⟨[], by simp, rfl, walks_skip ?_⟩
      rw [left]
      exact .done
    · rename_i v rest left
      have idle := head_of_dropWhile left
      obtain ⟨new, rfl, called, walks⟩ := ih _ _ _ _ (distinct.visit idle (callback v g s).1)
        (by rw [size_set, List.length_cons]; omega) visits final last run
      have here : final.node v.node = (callback v g s).1 := by
        rw [walks.kept fun ⟨u, hu, same⟩ =>
          (walks.fresh u hu).1 ⟨v, List.mem_cons_self, same.symm⟩]
        exact node_set_self (isIdle_eq_false.mp idle).2 _
      refine ⟨v :: new, by simp, called, walks_skip ?_⟩
      rw [left]
      exact .visit idle (congrArg Except.ok here) walks

/-- Fuel beyond the number of nodes changes nothing. -/
theorem traverseFrom_enough : ∀ (fuel more : Nat) (pending met : List Visit) (g : Graph) (s : σ),
    g.Distinct met → g.size ≤ fuel + met.length → fuel ≤ more →
    traverseFrom callback more pending met g s = traverseFrom callback fuel pending met g s := by
  intro fuel
  induction fuel with
  | zero =>
    intro more pending met g s distinct enough _
    have full : g.size ≤ met.length := by omega
    have idle : pending.dropWhile (g.isIdle met) = [] :=
      List.dropWhile_eq_nil_iff.mpr fun v _ => isIdle_of_full distinct full v
    cases more with
    | zero => rfl
    | succ more =>
      rw [traverseFrom.eq_2, idle]
      rfl
  | succ fuel ih =>
    intro more pending met g s distinct enough le
    cases more with
    | zero => exact absurd le (Nat.not_succ_le_zero fuel)
    | succ more =>
      rw [traverseFrom, traverseFrom]
      split
      · rfl
      · rename_i v rest left
        exact ih _ _ _ _ _ (distinct.visit (head_of_dropWhile left) _)
          (by rw [size_set, List.length_cons]; omega) (Nat.le_of_succ_le_succ le)

theorem callAll_unchanged (idle : ∀ v h t, (callback v h t).1 = h.node v.node)
    (visits : List Visit) (g : Graph) (s : σ) : (callAll callback visits (g, s)).1 = g := by
  induction visits generalizing s with
  | nil => rfl
  | cons v visits ih =>
    have same : g.set v.node (callback v g s).1 = g := by rw [idle, set_node_self]
    show (callAll callback visits (g.set v.node (callback v g s).1, (callback v g s).2)).1 = g
    rw [same]
    exact ih _

/-- A callback that goes by the visit and the node alone edits like a walk. -/
theorem walkFrom_of_traverseFrom (edit : Visit → Node → Node)
    (plain : ∀ v h t, (callback v h t).1 = edit v (h.node v.node)) :
    ∀ (fuel : Nat) (pending met : List Visit) (g : Graph) (s : σ) visits final last,
      traverseFrom callback fuel pending met g s = (visits, final, last) →
      walkFrom (fun v n => (.ok (edit v n) : Except ε Node)) fuel pending met g =
        .ok visits final := by
  intro fuel
  induction fuel with
  | zero =>
    intro pending met g s visits final last run
    cases run
    rfl
  | succ fuel ih =>
    intro pending met g s visits final last run
    rw [traverseFrom] at run
    split at run
    · rename_i left
      cases run
      rw [walkFrom, left]
    · rename_i v rest left
      rw [walkFrom, left]
      have onward := ih _ _ _ _ _ _ _ run
      rwa [plain] at onward

/-- What a traversal is to be: its visits, the graph that it leaves behind and the last notes. -/
structure Traversed (callback : Callback σ) (root : NodeId) (g : Graph) (s : σ)
    (visits : List Visit) (final : Graph) (last : σ) : Prop where
  /-- It ends by itself: no more steps are taken if more may be. -/
  ends : ∀ fuel, g.size ≤ fuel →
    traverseFrom callback fuel [⟨none, root⟩] [] g s = (visits, final, last)
  called : callAll callback visits (g, s) = (final, last)
  once : (visits.map (·.node)).Nodup
  complete : ∀ i, Met visits i ↔ Relation.ReflTransGen final.Edge root i
  first : visits.head? = some ⟨none, root⟩
  keyed : ∀ before v after, visits = before ++ v :: after → before ≠ [] →
    ∃ u ∈ before, v ∈ final.edges u.node
  preorder : DepthFirst final.edges Visit.node [] [⟨none, root⟩] visits
  unchanged : (∀ v h t, (callback v h t).1 = h.node v.node) → final = g ∧ g.visits root = visits
  walked : ∀ {ε : Type} (edit : Visit → Node → Node),
    (∀ v h t, (callback v h t).1 = edit v (h.node v.node)) →
    walk (fun v n => (.ok (edit v n) : Except ε Node)) root g = .ok visits final

/-- Whatever a callback makes of the nodes that it is called for, a traversal calls it once for
each node that the root leads to in the end, and for no other, in depth-first order. -/
theorem traverse_complete (callback : Callback σ) (g : Graph) (s : σ) (inside : root < g.size) :
    ∃ visits final last, traverse callback root g s = (visits, final, last) ∧
      Traversed callback root g s visits final last := by
  rcases run : traverse callback root g s with ⟨visits, final, last⟩
  refine ⟨visits, final, last, rfl, ?_⟩
  have distinct : g.Distinct [] := ⟨List.nodup_nil, nofun⟩
  obtain ⟨_, rfl, called, walks⟩ := walks_of_traverseFrom g.size _ [] g s distinct (by simp)
    visits final last run
  have preorder : DepthFirst final.edges Visit.node [] [⟨none, root⟩] visits := by
    have search := walks.depthFirst
    rwa [List.filter_cons_of_pos (by simpa using inside), List.filter_nil] at search
  have first : visits.head? = some ⟨none, root⟩ := List.head?_eq_getElem? ▸ preorder.head
  refine ⟨fun fuel enough => ?_, called, walks.nodup, fun i => ?_, first, ?_, preorder, ?_, ?_⟩
  · rw [← run]
    exact traverseFrom_enough g.size fuel _ [] g s distinct (by simp) enough
  · rw [walks.met_iff, ← walks.size_eq]
    exact below_iff (walks.size_eq ▸ inside)
  · intro before v after split later
    rcases preorder.sourced before v after split with start | source
    · -- the root is not visited again
      obtain ⟨b, before, rfl⟩ := List.exists_cons_of_ne_nil later
      rw [split, List.cons_append, List.head?_cons, Option.some.injEq] at first
      rw [List.mem_singleton.mp start, ← first] at split
      have once := walks.nodup
      simp [split] at once
    · exact source
  · intro idle
    have same : final = g := by
      have kept := callAll_unchanged idle visits g s
      rwa [called] at kept
    refine ⟨same, ?_⟩
    rw [Graph.visits, walk, walkFrom_of_traverseFrom (fun _ n => n) idle _ _ _ _ _ _ _ _ run]
  · intro ε edit plain
    exact walkFrom_of_traverseFrom edit plain _ _ _ _ _ _ _ _ run

/-- A graph with cycles and a node that nothing leads to. -/
def crossroads : Graph := ⟨#[
  { anyOf := some [.node 1, .bool true], properties := some [("next", .node 2)] },
  { definitions := some [("up", .node 0), ("side", .node 2)] },
  { additionalItems := some (.node 0) },
  { title := .str "aside" }]⟩

/-- Numbers the nodes in the order of the calls, and turns the third one away from where it led. -/
def divert : Callback Nat := fun v g called =>
  let n := { g.node v.node with title := .int called }
  (if called = 2 then { n with additionalItems := none, items := some (.each (.node 3)) } else n,
    called + 1)

theorem traverse_crossroads : 0 < crossroads.size ∧ ∃ final last,
    Traversed divert 0 crossroads 0
      [⟨none, 0⟩, ⟨none, 1⟩, ⟨some "side", 2⟩, ⟨none, 3⟩] final last := by
  have inside : 0 < crossroads.size := by decide
  obtain ⟨visits, final, last, run, traversed⟩ := traverse_complete divert crossroads 0 inside
  have order : (traverse divert 0 crossroads 0).1 =
      [⟨none, 0⟩, ⟨none, 1⟩, ⟨some "side", 2⟩, ⟨none, 3⟩] := by decide +kernel
  rw [run] at order
  exact ⟨inside, final, last, order ▸ traversed⟩

end Graph
end LinkedSchema
