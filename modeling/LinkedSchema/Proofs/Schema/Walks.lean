import LinkedSchema.Schema.Walk
import Mathlib.Data.List.Perm.Subperm
import Mathlib.Logic.Relation
/-! What a walk does: it meets every node below its root, in the graph that it leaves behind, edits
each of them once and leaves all other nodes as they are. -/
namespace LinkedSchema
namespace Graph

variable {ε : Type} {edit : Visit → Node → Except ε Node} {g final : Graph} {i j root : NodeId}
  {pending met new : List Visit}

/-- An edge that a walk follows. -/
def Leads (g : Graph) (i j : NodeId) : Prop := ∃ v ∈ (g.node i).successors, v.node = j

def Reaches (g : Graph) : NodeId → NodeId → Prop := Relation.ReflTransGen g.Leads

/-- Whether a node is among those of some visits. -/
def Met (visits : List Visit) (i : NodeId) : Prop := ∃ v ∈ visits, v.node = i

/-- A walk over what is pending, from the graph that it starts with to the one that it ends with.
The last argument lists the visits in order. -/
inductive Walks (edit : Visit → Node → Except ε Node) :
    Graph → List Visit → List Visit → Graph → List Visit → Prop
  | done {g : Graph} {met : List Visit} : Walks edit g [] met g []
  | skip {g final : Graph} {v : Visit} {rest met new : List Visit} :
      g.isIdle met v = true → Walks edit g rest met final new →
      Walks edit g (v :: rest) met final new
  | visit {g final : Graph} {v : Visit} {n : Node} {rest met new : List Visit} :
      g.isIdle met v = false → edit v (g.node v.node) = .ok n →
      Walks edit (g.set v.node n) (n.successors ++ rest) (v :: met) final new →
      Walks edit g (v :: rest) met final (v :: new)

theorem isIdle_eq_false {v : Visit} :
    g.isIdle met v = false ↔ ¬ Met met v.node ∧ v.node < g.size := by
  simp [isIdle, Met]

theorem isIdle_eq_true {v : Visit} :
    g.isIdle met v = true ↔ (v.node < g.size → Met met v.node) := by
  rw [← not_iff_not, Bool.not_eq_true, isIdle_eq_false]
  tauto

theorem successors_of_le (outside : g.size ≤ i) : (g.node i).successors = [] := by
  rw [node_of_le outside]
  rfl

namespace Walks

theorem size_eq (h : Walks edit g pending met final new) : final.size = g.size := by
  induction h with
  | done => rfl
  | skip _ _ ih => exact ih
  | visit _ _ _ ih => rw [ih, size_set]

theorem fresh (h : Walks edit g pending met final new) :
    ∀ v ∈ new, ¬ Met met v.node ∧ v.node < g.size := by
  induction h with
  | done => nofun
  | skip _ _ ih => exact ih
  | visit idle _ _ ih =>
    intro w hw
    rcases List.mem_cons.mp hw with rfl | later
    · exact isIdle_eq_false.mp idle
    · obtain ⟨unmet, inside⟩ := ih w later
      refine ⟨fun ⟨u, hu, same⟩ => unmet ⟨u, List.mem_cons_of_mem _ hu, same⟩, ?_⟩
      rwa [size_set] at inside

theorem nodup (h : Walks edit g pending met final new) : (new.map (·.node)).Nodup := by
  induction h with
  | done => exact List.nodup_nil
  | skip _ _ ih => exact ih
  | @visit _ _ v _ _ _ new _ _ walks ih =>
    rw [List.map_cons, List.nodup_cons]
    refine ⟨?_, ih⟩
    intro again
    obtain ⟨w, hw, same⟩ := List.mem_map.mp again
    exact (walks.fresh w hw).1 ⟨v, List.mem_cons_self, same.symm⟩

theorem kept (h : Walks edit g pending met final new) (unmet : ¬ Met new i) :
    final.node i = g.node i := by
  induction h with
  | done => rfl
  | skip _ _ ih => exact ih unmet
  | visit _ _ _ ih =>
    have other := fun same => unmet ⟨_, List.mem_cons_self, same⟩
    rw [ih fun ⟨w, hw, same⟩ => unmet ⟨w, List.mem_cons_of_mem _ hw, same⟩, node_set_ne other]

/-- A visited node is edited as the graph had it at the start. -/
theorem edited (h : Walks edit g pending met final new) :
    ∀ v ∈ new, edit v (g.node v.node) = .ok (final.node v.node) := by
  induction h with
  | done => nofun
  | skip _ _ ih => exact ih
  | @visit g _ v n _ _ _ idle made walks ih =>
    obtain ⟨_, inside⟩ := isIdle_eq_false.mp idle
    intro w hw
    rcases List.mem_cons.mp hw with rfl | later
    · have unmet : ¬ Met _ w.node := fun ⟨u, hu, same⟩ =>
        (walks.fresh u hu).1 ⟨w, List.mem_cons_self, same.symm⟩
      rw [walks.kept unmet, node_set_self inside, made]
    · have other : v.node ≠ w.node := fun same =>
        (walks.fresh w later).1 ⟨v, List.mem_cons_self, same⟩
      rw [← ih w later, node_set_ne other]

theorem pending_met (h : Walks edit g pending met final new) :
    ∀ v ∈ pending, v.node < g.size → Met met v.node ∨ Met new v.node := by
  induction h with
  | done => nofun
  | skip idle _ ih =>
    intro w hw inside
    rcases List.mem_cons.mp hw with rfl | later
    · exact .inl (isIdle_eq_true.mp idle inside)
    · exact ih w later inside
  | @visit _ _ v _ _ _ _ _ _ _ ih =>
    intro w hw inside
    rcases List.mem_cons.mp hw with rfl | later
    · exact .inr ⟨w, List.mem_cons_self, rfl⟩
    · have known := ih w (List.mem_append_right _ later) (by rwa [size_set])
      simp only [Met, List.mem_cons] at known ⊢
      grind

/-- The edges of visited nodes, as the walk leaves them, lead to nodes that are met. -/
theorem closed (h : Walks edit g pending met final new) :
    ∀ i, Met new i → ∀ j, final.Leads i j → j < g.size → Met met j ∨ Met new j := by
  induction h with
  | done => nofun
  | skip _ _ ih => exact ih
  | @visit g _ v n _ met new idle _ walks ih =>
    obtain ⟨_, inside⟩ := isIdle_eq_false.mp idle
    intro i hi j edge below
    have known : Met (v :: met) j ∨ Met new j := by
      by_cases later : Met new i
      · exact ih i later j edge (by rwa [size_set])
      · obtain ⟨w, hw, rfl⟩ := hi
        rcases List.mem_cons.mp hw with rfl | after
        · obtain ⟨u, hu, rfl⟩ := edge
          rw [walks.kept later, node_set_self inside] at hu
          exact walks.pending_met u (List.mem_append_left _ hu) (by rwa [size_set])
        · exact absurd ⟨w, after, rfl⟩ later
    simp only [Met, List.mem_cons] at known ⊢
    grind

theorem reached (h : Walks edit g pending met final new) :
    ∀ i, Met new i → ∃ v ∈ pending, final.Reaches v.node i := by
  induction h with
  | done => nofun
  | skip _ _ ih =>
    intro i hi
    obtain ⟨v, hv, reaches⟩ := ih i hi
    exact ⟨v, List.mem_cons_of_mem _ hv, reaches⟩
  | @visit g _ v n _ _ _ idle _ walks ih =>
    obtain ⟨_, inside⟩ := isIdle_eq_false.mp idle
    have here := walks.kept (i := v.node) fun ⟨u, hu, same⟩ =>
      (walks.fresh u hu).1 ⟨v, List.mem_cons_self, same.symm⟩
    rw [node_set_self inside] at here
    rintro i ⟨w, hw, rfl⟩
    rcases List.mem_cons.mp hw with rfl | later
    · exact ⟨w, List.mem_cons_self, .refl⟩
    · obtain ⟨u, hu, reaches⟩ := ih w.node ⟨w, later, rfl⟩
      rcases List.mem_append.mp hu with edge | waiting
      · exact ⟨v, List.mem_cons_self, .head ⟨u, here ▸ edge, rfl⟩ reaches⟩
      · exact ⟨u, List.mem_cons_of_mem _ waiting, reaches⟩

/-- A walk from a root visits the nodes that the root leads to when it is over. -/
theorem met_iff {key : Option String} (h : Walks edit g [⟨key, root⟩] [] final new) :
    Met new i ↔ i < g.size ∧ final.Reaches root i := by
  constructor
  · intro hi
    obtain ⟨v, hv, reaches⟩ := h.reached i hi
    obtain ⟨w, hw, rfl⟩ := hi
    rw [List.mem_singleton.mp hv] at reaches
    exact ⟨(h.fresh w hw).2, reaches⟩
  · rintro ⟨inside, reaches⟩
    have unmet : ∀ k, ¬ Met [] k := fun _ ⟨_, hv, _⟩ => by cases hv
    induction reaches with
    | refl => exact (h.pending_met _ List.mem_cons_self inside).resolve_left (unmet _)
    | @tail k j _ edge ih =>
      have within : k < g.size := by
        by_contra outside
        obtain ⟨v, hv, _⟩ := edge
        rw [successors_of_le (h.size_eq ▸ Nat.le_of_not_lt outside)] at hv
        cases hv
      exact (h.closed k (ih within) j edge inside).resolve_left (unmet j)

end Walks

theorem walks_skip (h : Walks edit g (pending.dropWhile (g.isIdle met)) met final new) :
    Walks edit g pending met final new := by
  induction pending with
  | nil => exact h
  | cons v rest ih =>
    by_cases idle : g.isIdle met v = true
    · rw [List.dropWhile_cons_of_pos idle] at h
      exact .skip idle (ih h)
    · rwa [List.dropWhile_cons_of_neg idle] at h

theorem walks_idle (idle : ∀ v ∈ pending, g.isIdle met v = true) :
    Walks edit g pending met g [] := by
  induction pending with
  | nil => exact .done
  | cons v rest ih =>
    exact .skip (idle v List.mem_cons_self) (ih fun w hw => idle w (List.mem_cons_of_mem _ hw))

/-- What was met so far: nodes of the graph, each of them once. -/
def Distinct (g : Graph) (met : List Visit) : Prop :=
  (met.map (·.node)).Nodup ∧ ∀ v ∈ met, v.node < g.size

/-- When as many nodes are met as there are, there is nothing left to do. -/
theorem isIdle_of_full (distinct : g.Distinct met) (full : g.size ≤ met.length) (v : Visit) :
    g.isIdle met v = true := by
  rw [isIdle_eq_true]
  intro inside
  by_contra unmet
  have once : (v.node :: met.map (·.node)).Nodup := by
    refine List.nodup_cons.mpr ⟨fun again => unmet ?_, distinct.1⟩
    obtain ⟨w, hw, same⟩ := List.mem_map.mp again
    exact ⟨w, hw, same⟩
  have among : v.node :: met.map (·.node) ⊆ List.range g.size := by
    intro i hi
    rcases List.mem_cons.mp hi with rfl | old
    · exact List.mem_range.mpr inside
    · obtain ⟨w, hw, rfl⟩ := List.mem_map.mp old
      exact List.mem_range.mpr (distinct.2 w hw)
  have few := (List.subperm_of_subset once among).length_le
  rw [List.length_cons, List.length_map, List.length_range] at few
  omega

theorem head_of_dropWhile {v : Visit} {rest : List Visit}
    (left : pending.dropWhile (g.isIdle met) = v :: rest) : g.isIdle met v = false := by
  have head := List.head?_dropWhile_not (g.isIdle met) pending
  simpa [left] using head

theorem Distinct.visit {v : Visit} (distinct : g.Distinct met) (idle : g.isIdle met v = false)
    (n : Node) : (g.set v.node n).Distinct (v :: met) := by
  obtain ⟨unmet, inside⟩ := isIdle_eq_false.mp idle
  refine ⟨List.nodup_cons.mpr ⟨fun again => unmet ?_, distinct.1⟩, fun w hw => ?_⟩
  · obtain ⟨w, hw, same⟩ := List.mem_map.mp again
    exact ⟨w, hw, same⟩
  · rw [size_set]
    rcases List.mem_cons.mp hw with rfl | old
    · exact inside
    · exact distinct.2 w old

/-- A run with enough fuel is a walk. -/
theorem walks_of_walkFrom : ∀ (fuel : Nat) (pending met : List Visit) (g : Graph),
    g.Distinct met → g.size ≤ fuel + met.length → ∀ visits final,
    walkFrom edit fuel pending met g = .ok visits final →
    ∃ new, visits = met.reverse ++ new ∧ Walks edit g pending met final new := by
  intro fuel
  induction fuel with
  | zero =>
    intro pending met g distinct enough visits final run
    cases run
    have full : g.size ≤ met.length := by omega
    exact ⟨[], by simp, walks_idle fun v _ => isIdle_of_full distinct full v⟩
  | succ fuel ih =>
    intro pending met g distinct enough visits final run
    rw [walkFrom] at run
    split at run
    · rename_i left
      cases run
      refine ⟨[], by simp, walks_skip ?_⟩
      rw [left]
      exact .done
    · rename_i v rest left
      have idle := head_of_dropWhile left
      split at run
      · cases run
      · rename_i n made
        obtain ⟨new, rfl, walks⟩ := ih _ _ _ (distinct.visit idle n)
          (by rw [size_set, List.length_cons]; omega) visits final run
        refine ⟨v :: new, by simp, walks_skip ?_⟩
        rw [left]
        exact .visit idle made walks

theorem walks_of_walk {visits : List Visit} (run : walk edit root g = .ok visits final) :
    Walks edit g [⟨none, root⟩] [] final visits := by
  obtain ⟨new, rfl, walks⟩ := walks_of_walkFrom g.size _ [] g ⟨List.nodup_nil, nofun⟩ (by simp)
    visits final run
  exact walks

/-- A walk does not fail while the nodes that it comes to, among those that `reach` holds of, can
be edited and lead to such nodes only. -/
theorem walkFrom_ok {start : Graph} {reach : NodeId → Prop}
    (editable : ∀ v : Visit, reach v.node → v.node < start.size →
      ∃ n, edit v (start.node v.node) = .ok n ∧ ∀ w ∈ n.successors, reach w.node) :
    ∀ (fuel : Nat) (pending met : List Visit) (g : Graph), g.size = start.size →
      (∀ i, ¬ Met met i → g.node i = start.node i) → (∀ v ∈ pending, reach v.node) →
      ∃ visits final, walkFrom edit fuel pending met g = .ok visits final := by
  intro fuel
  induction fuel with
  | zero => exact fun _ _ _ _ _ _ => ⟨_, _, rfl⟩
  | succ fuel ih =>
    intro pending met g size same ahead
    rw [walkFrom]
    split
    · exact ⟨_, _, rfl⟩
    · rename_i v rest left
      obtain ⟨unmet, inside⟩ := isIdle_eq_false.mp (head_of_dropWhile left)
      have remaining : ∀ w ∈ v :: rest, reach w.node := fun w hw =>
        ahead w ((List.dropWhile_sublist _).subset (left ▸ hw))
      obtain ⟨n, made, onward⟩ := editable v (remaining v List.mem_cons_self) (size ▸ inside)
      rw [same _ unmet, made]
      refine ih _ _ _ (by rw [size_set, size]) (fun i other => ?_) (fun w hw => ?_)
      · have apart : v.node ≠ i := fun here => other ⟨v, List.mem_cons_self, here⟩
        rw [node_set_ne apart]
        exact same i fun ⟨w, hw, here⟩ => other ⟨w, List.mem_cons_of_mem _ hw, here⟩
      · rcases List.mem_append.mp hw with edge | waiting
        · exact onward w edge
        · exact remaining w (List.mem_cons_of_mem _ waiting)

theorem walk_ok {reach : NodeId → Prop} (start : reach root)
    (editable : ∀ v : Visit, reach v.node → v.node < g.size →
      ∃ n, edit v (g.node v.node) = .ok n ∧ ∀ w ∈ n.successors, reach w.node) :
    ∃ visits final, walk edit root g = .ok visits final :=
  walkFrom_ok editable g.size _ [] g rfl (fun _ _ => rfl) fun v hv => by
    rwa [List.mem_singleton.mp hv]

end Graph
end LinkedSchema
