import LinkedSchema.Proofs.Normalize.Passes
/-! Walks whose edits keep the edges of the nodes. Such a walk goes through the visits of the graph
one after the other, and if an edit fails, all that comes later is as it was. -/
namespace LinkedSchema
namespace Graph

variable {ε : Type} {edit : Visit → Node → Except ε Node} {g h final : Graph} {i root : NodeId}
  {n : Node} {visits : List Visit} {v : Visit} {e : ε}

/-- A walk that changes nothing does not fail. -/
theorem walk_visits (g : Graph) (root : NodeId) :
    walk (fun _ n => (.ok n : Except Empty Node)) root g = .ok (g.visits root) g := by
  have editable : ∀ v : Visit, True → v.node < g.size → ∃ n,
      (.ok (g.node v.node) : Except Empty Node) = .ok n ∧ ∀ w ∈ n.successors, True :=
    fun v _ _ => ⟨g.node v.node, rfl, fun _ _ => trivial⟩
  obtain ⟨visits, final, run⟩ : ∃ visits final,
      walk (fun _ n => (.ok n : Except Empty Node)) root g = .ok visits final :=
    @walk_ok _ _ g root (fun _ => True) trivial editable
  have walks := walks_of_walk run
  have unchanged : final = g := by
    apply ext_node walks.size_eq
    intro j _
    by_cases met : Met visits j
    · obtain ⟨v, hv, rfl⟩ := met
      exact (Except.ok.inj (walks.edited v hv)).symm
    · exact walks.kept met
  have listed : g.visits root = visits := by
    rw [Graph.visits, run]
  rw [run, listed, unchanged]

theorem walks_visits (g : Graph) (root : NodeId) :
    Walks (fun _ n => (.ok n : Except Empty Node)) g [⟨none, root⟩] [] g (g.visits root) :=
  walks_of_walk (walk_visits g root)

theorem met_visits (g : Graph) (root i : NodeId) : Met (g.visits root) i ↔ g.Below root i :=
  (walks_visits g root).met_iff

/-- Edits the nodes of the visits in turn. An edit that fails ends it, and leaves its node as it
was. -/
def editEach (edit : Visit → Node → Except ε Node) :
    List Visit → Graph → EStateM.Result (NodeId × ε) Graph Unit
  | [], g => .ok () g
  | v :: rest, g =>
    match edit v (g.node v.node) with
    | .error e => .error (v.node, e) g
    | .ok n => editEach edit rest (g.set v.node n)

/-- What edits in turn leave behind that fail at a visit: the nodes before it are edited, and all
others are as they were. -/
structure Halts (edit : Visit → Node → Except ε Node) (g : Graph) (before : List Visit) (v : Visit)
    (e : ε) (h : Graph) : Prop where
  size : h.size = g.size
  edited : ∀ u ∈ before, edit u (g.node u.node) = .ok (h.node u.node)
  failed : edit v (g.node v.node) = .error e
  kept : ∀ j, ¬ Met before j → h.node j = g.node j

/-- Edits in turn come to the end, or halt at the first visit at which one fails. -/
theorem editEach_spec (edit : Visit → Node → Except ε Node)
    (once : (visits.map (·.node)).Nodup) (inside : ∀ v ∈ visits, v.node < g.size) :
    match editEach edit visits g with
    | .ok _ h => h.size = g.size ∧ (∀ v ∈ visits, edit v (g.node v.node) = .ok (h.node v.node)) ∧
        ∀ j, ¬ Met visits j → h.node j = g.node j
    | .error (i, e) h => ∃ before v after, visits = before ++ v :: after ∧ v.node = i ∧
        Halts edit g before v e h := by
  induction visits generalizing g with
  | nil => exact ⟨rfl, nofun, fun _ _ => rfl⟩
  | cons v rest ih =>
    obtain ⟨apart, once⟩ := List.nodup_cons.mp once
    have unmet : ¬ Met rest v.node := fun ⟨u, listed, same⟩ =>
      apart (List.mem_map.mpr ⟨u, listed, same⟩)
    unfold editEach
    cases made : edit v (g.node v.node) with
    | error e => exact ⟨[], v, rest, rfl, rfl, rfl, nofun, made, fun _ _ => rfl⟩
    | ok n =>
      have here : (g.set v.node n).node v.node = n := node_set_self (inside v List.mem_cons_self) n
      -- the other visits see the node of this one no more
      have other : ∀ j, v.node ≠ j → (g.set v.node n).node j = g.node j :=
        fun j differs => node_set_ne differs n
      have later : ∀ u ∈ rest, (g.set v.node n).node u.node = g.node u.node := fun u listed =>
        other u.node fun same => unmet ⟨u, listed, same.symm⟩
      have within : ∀ u ∈ rest, u.node < (g.set v.node n).size := fun u listed => by
        rw [size_set]
        exact inside u (List.mem_cons_of_mem _ listed)
      have onward := ih once within
      dsimp only
      split at onward
      · rename_i h run
        obtain ⟨size, edited, kept⟩ := onward
        refine ⟨size.trans (size_set _ _ _), fun u listed => ?_, fun j apart => ?_⟩
        · rcases List.mem_cons.mp listed with rfl | listed
          · rw [made, kept _ unmet, here]
          · rw [← later u listed, edited u listed]
        · have differs : v.node ≠ j := fun same => apart ⟨v, List.mem_cons_self, same⟩
          rw [kept j fun ⟨u, listed, same⟩ => apart ⟨u, List.mem_cons_of_mem _ listed, same⟩,
            other j differs]
      · rename_i i e h run
        obtain ⟨before, w, after, rfl, here', halts⟩ := onward
        have mem : ∀ u ∈ before, u ∈ before ++ w :: after := fun u listed =>
          List.mem_append_left _ listed
        refine ⟨v :: before, w, after, rfl, here', halts.size.trans (size_set _ _ _), ?_, ?_, ?_⟩
        · intro u listed
          rcases List.mem_cons.mp listed with rfl | listed
          · rw [made, halts.kept _ fun ⟨x, hx, same⟩ => unmet ⟨x, mem x hx, same⟩, here]
          · rw [← later u (mem u listed), halts.edited u listed]
        · rw [← later w (by simp), halts.failed]
        · intro j apart
          have differs : v.node ≠ j := fun same => apart ⟨v, List.mem_cons_self, same⟩
          rw [halts.kept j fun ⟨u, listed, same⟩ => apart ⟨u, List.mem_cons_of_mem _ listed, same⟩,
            other j differs]

/-- The second graph has the edges of the first one. -/
structure SameEdges (g h : Graph) : Prop where
  size : h.size = g.size
  successors : ∀ i, (h.node i).successors = (g.node i).successors

theorem SameEdges.refl (g : Graph) : g.SameEdges g := ⟨rfl, fun _ => rfl⟩

theorem SameEdges.set (same : g.SameEdges h) (kept : n.successors = (h.node i).successors) :
    g.SameEdges (h.set i n) where
  size := (size_set _ _ _).trans same.size
  successors j := by
    by_cases here : i = j
    · subst here
      rw [← same.successors i, ← kept]
      by_cases inside : i < h.size
      · rw [node_set_self inside]
      · have beyond : (h.set i n).size ≤ i := by
          rw [size_set]
          exact Nat.le_of_not_lt inside
        rw [kept, successors_of_le beyond, successors_of_le (Nat.le_of_not_lt inside)]
    · rw [node_set_ne here]
      exact same.successors j

/-- Edits that keep the edges of the nodes. -/
def KeepsEdges (edit : Visit → Node → Except ε Node) : Prop :=
  ∀ v n m, edit v n = .ok m → m.successors = n.successors

/-- With the same edges ahead, a walk that edits goes the same way as one that changes nothing. -/
theorem walkFrom_steady (keeps : KeepsEdges edit) : ∀ (fuel : Nat) (pending met : List Visit)
    (g h : Graph), g.SameEdges h → ∀ visits final,
    walkFrom (fun _ n => (.ok n : Except Empty Node)) fuel pending met g = .ok visits final →
    ∃ new, visits = met.reverse ++ new ∧ walkFrom edit fuel pending met h =
      match editEach edit new h with
      | .ok _ k => .ok visits k
      | .error e k => .error e k := by
  intro fuel
  induction fuel with
  | zero =>
    intro pending met g h same visits final run
    cases run
    exact ⟨[], by simp, rfl⟩
  | succ fuel ih =>
    intro pending met g h same visits final run
    have idle : h.isIdle met = g.isIdle met := by
      funext v
      rw [isIdle, isIdle, same.size]
    rw [walkFrom] at run ⊢
    rw [idle]
    split at run
    · cases run
      exact ⟨[], by simp, rfl⟩
    · rename_i v rest left
      dsimp only at run ⊢
      cases made : edit v (h.node v.node) with
      | error e =>
        obtain ⟨new, rfl, _⟩ := ih _ _ _ _ (SameEdges.refl _) visits final run
        exact ⟨v :: new, by simp, by simp only [editEach, made]⟩
      | ok n =>
        have edges : n.successors = (g.node v.node).successors :=
          (keeps v _ n made).trans (same.successors v.node)
        have onward : (g.set v.node (g.node v.node)).SameEdges (h.set v.node n) := by
          have unchanged : g.set v.node (g.node v.node) = g := set_node_self g v.node
          rw [unchanged]
          exact same.set (keeps v _ n made)
        rw [← edges] at run
        obtain ⟨new, rfl, walked⟩ := ih _ _ _ _ onward visits final run
        refine ⟨v :: new, by simp, ?_⟩
        simp only [editEach, made]
        exact walked

/-- A walk whose edits keep the edges edits in turn what a walk that changes nothing visits, also in
a graph that has the same edges. -/
theorem walk_steady (keeps : KeepsEdges edit) (same : g.SameEdges h) (root : NodeId) :
    walk edit root h =
      match editEach edit (g.visits root) h with
      | .ok _ k => .ok (g.visits root) k
      | .error e k => .error e k := by
  obtain ⟨new, listed, walked⟩ :=
    walkFrom_steady keeps g.size _ [] g h same _ _ (walk_visits g root)
  rw [List.reverse_nil, List.nil_append] at listed
  rw [walk, same.size, walked, listed]

end Graph
end LinkedSchema
