import LinkedSchema.Proofs.Types.Labels
import LinkedSchema.Proofs.Types.Writing
/-! What an export is made of. What stands for a type is a reference to its label, or else the type
in full, however deep the types in it go. -/
namespace LinkedSchema
namespace TypeGraph

variable {f f' : TypeId → Json} {g : TypeGraph} {n : TypeNode} {root t u : TypeId}
  {order : List TypeId} {labels : List (TypeId × String)} {label : String}

theorem partJson_congr {p : Part} (agree : ∀ t ∈ p.type?, f t = f' t) :
    partJson f p = partJson f' p := by
  cases p with
  | type t => exact agree t rfl
  | member m => simp only [partJson, agree m.type rfl]
  | choice name t => simp only [partJson, agree t rfl]
  | value v => rfl

theorem paramsJson_congr {p : Params} (agree : ∀ t ∈ p.types, f t = f' t) :
    paramsJson f p = paramsJson f' p := by
  cases p with
  | one t => exact agree t List.mem_cons_self
  | value v => rfl
  | many parts =>
    refine congrArg Json.arr (List.map_congr_left fun part listed => ?_)
    exact partJson_congr fun t here => agree t (List.mem_filterMap.mpr ⟨part, listed, here⟩)

/-- A type in full depends on what stands for the types that it refers to, and on no others. -/
theorem fullJson_congr (agree : ∀ t ∈ n.references, f t = f' t) :
    fullJson f n = fullJson f' n := by
  have params : paramsJson f n.params = paramsJson f' n.params :=
    paramsJson_congr fun t ht => agree t (by simp [TypeNode.references, ht])
  have superTypes : n.superTypes.map f = n.superTypes.map f' :=
    List.map_congr_left fun t ht => agree t (by simp [TypeNode.references, ht])
  have spread : (n.spread.map fun t => ("spread_param", f t)) =
      n.spread.map fun t => ("spread_param", f' t) := by
    cases given : n.spread with
    | none => rfl
    | some t => rw [Option.map_some, Option.map_some, agree t (by simp [TypeNode.references, given])]
  rw [fullJson, fullJson, params, superTypes, spread]

/-- What stands for a type that is written elsewhere. -/
def reference (label : String) : Json := .obj [("tag", .str "ref"), ("id", .str label)]

theorem same_reference_iff {label label' : String} :
    (reference label).Same (reference label') ↔ label = label' := by
  rw [reference, reference, Json.same_pair_iff (by decide), Json.same_str_iff, Json.same_str_iff]
  simp

theorem typeJson_succ (fuel : Nat) (t : TypeId) :
    g.typeJson labels (fuel + 1) t =
      match labels.lookup t with
      | some label => reference label
      | none => fullJson (g.typeJson labels fuel) (g.node t) := rfl

section Fuel

variable {α : Type} (h : Nat → TypeId → α) (visits : g.Visits [root] [] order)
  (same : labels = g.labels (g.allReferences root order) 0 order)
  (step : ∀ fuel more t,
    (labels.lookup t = none → ∀ u ∈ (g.node t).references, h fuel u = h more u) →
    h (fuel + 1) t = h (more + 1) t)
include visits same step

theorem enough_succ (fuel : Nat) :
    ∀ t ∈ order, order.length < fuel + order.idxOf t → h (fuel + 1) t = h fuel t := by
  induction fuel with
  | zero =>
    intro t listed enough
    have inside := List.idxOf_lt_length_of_mem listed
    omega
  | succ fuel ih =>
    intro t listed enough
    have inside := List.idxOf_lt_length_of_mem listed
    refine step (fuel + 1) fuel t fun _ u edge => ?_
    have listed' := visits.mem_of_refers listed edge
    cases found : labels.lookup u with
    | some label =>
      obtain ⟨less, rfl⟩ : ∃ less, fuel = less + 1 := ⟨fuel - 1, by omega⟩
      refine step (less + 1) less u fun absent => ?_
      rw [found] at absent
      cases absent
    | none =>
      have few := (unlabelled listed' (same ▸ found)).2
      have later := idxOf_lt_of_unlabelled visits few listed edge
      exact ih u listed' (by omega)

/-- What is computed of a type from those that are written in it does not depend on the fuel, if
that is more than there are types. -/
theorem enough {fuel more : Nat} (few : order.length < fuel) (le : fuel ≤ more) (listed : t ∈ order) :
    h more t = h fuel t := by
  induction more, le using Nat.le_induction with
  | base => rfl
  | succ more le ih =>
    exact (enough_succ h visits same step more t listed (by omega)).trans ih

end Fuel

theorem typeJson_step {fuel more : Nat}
    (agree : labels.lookup t = none →
      ∀ u ∈ (g.node t).references, g.typeJson labels fuel u = g.typeJson labels more u) :
    g.typeJson labels (fuel + 1) t = g.typeJson labels (more + 1) t := by
  rw [typeJson_succ, typeJson_succ]
  cases found : labels.lookup t with
  | some label => rfl
  | none => exact fullJson_congr (agree found)

/-- What holds of a type whenever it holds of the types written inside it, holds of all. -/
theorem Visits.induction {P : TypeId → Prop} (visits : g.Visits [root] [] order)
    (few : ∀ t ∈ order, labels.lookup t = none → (g.allReferences root order).count t ≤ 1)
    (step : ∀ t ∈ order, (∀ u, g.Refers t u → labels.lookup u = none → P u) → P t) :
    ∀ t ∈ order, P t := by
  have below : ∀ k, ∀ t ∈ order, order.length < k + order.idxOf t → P t := by
    intro k
    induction k with
    | zero =>
      intro t listed enough
      have inside := List.idxOf_lt_length_of_mem listed
      omega
    | succ k ih =>
      intro t listed enough
      refine step t listed fun u edge absent => ?_
      have listed' := visits.mem_of_refers listed edge
      have later := idxOf_lt_of_unlabelled visits (few u listed' absent) listed edge
      exact ih u listed' (by omega)
  intro t listed
  exact below (order.length + 1) t listed (by omega)

/-- The types of an export in order, their labels, and what stands for each of them. -/
structure Encodes (g : TypeGraph) (root : TypeId) (order : List TypeId)
    (labels : List (TypeId × String)) (ofType : TypeId → Json) : Prop where
  visits : g.Visits [root] [] order
  labels_eq : labels = g.labels (g.allReferences root order) 0 order
  written : ∀ t ∈ order, ofType t =
    match labels.lookup t with
    | some label => reference label
    | none => fullJson ofType (g.node t)

theorem toJson_encodes (filled : g.Filled root) : ∃ order labels ofType,
    g.Encodes root order labels ofType ∧
    g.toJson root = .ok
      (.obj [("root", ofType root), ("nodes", .obj (labelledJson ofType g labels))]) := by
  obtain ⟨order, run, visits⟩ := order_visits filled
  refine ⟨order, g.labels (g.allReferences root order) 0 order,
    g.typeJson (g.labels (g.allReferences root order) 0 order) (g.size + 1), ⟨visits, rfl, ?_⟩, ?_⟩
  · intro t listed
    have few := visits.length_le filled
    rw [← enough (g.typeJson _) visits rfl (fun _ _ _ => typeJson_step) (Nat.lt_succ_of_le few)
      (Nat.le_succ (g.size + 1)) listed, typeJson_succ]
  · rw [toJson, run]
    rfl

namespace Encodes

variable (encodes : g.Encodes root order labels f)
include encodes

theorem mem_iff : t ∈ order ↔ g.Reaches root t := encodes.visits.mem_iff

theorem unlabelled (listed : t ∈ order) (h : labels.lookup t = none) :
    (g.node t).standaloneName = none ∧ (g.allReferences root order).count t ≤ 1 := by
  rw [encodes.labels_eq] at h
  exact TypeGraph.unlabelled listed h

theorem induction {P : TypeId → Prop}
    (step : ∀ t ∈ order, (∀ u, g.Refers t u → labels.lookup u = none → P u) → P t) :
    ∀ t ∈ order, P t :=
  encodes.visits.induction (fun _ listed absent => (encodes.unlabelled listed absent).2) step

theorem nodup (names : g.WellNamed root) : (labels.map (·.2)).Nodup := by
  rw [encodes.labels_eq]
  exact labels_nodup names (fun t listed => encodes.mem_iff.mp listed) encodes.visits.nodup

theorem label_unique (names : g.WellNamed root) (ht : labels.lookup t = some label)
    (hu : labels.lookup u = some label) : t = u := by
  have same : (t, label) = (u, label) := List.inj_on_of_nodup_map (encodes.nodup names)
    (mem_of_lookup ht) (mem_of_lookup hu) rfl
  exact congrArg Prod.fst same

theorem lookup_labelledJson (names : g.WellNamed root) (h : labels.lookup t = some label) :
    (labelledJson f g labels).lookup label = some (fullJson f (g.node t)) := by
  have once : ((labels.map fun e => (e.2, fullJson f (g.node e.1))).reverse.map (·.1)).Nodup := by
    rw [List.map_reverse, List.nodup_reverse, List.map_map]
    exact encodes.nodup names
  have listed : (label, fullJson f (g.node t)) ∈
      (labels.map fun e => (e.2, fullJson f (g.node e.1))).reverse :=
    List.mem_reverse.mpr (List.mem_map.mpr ⟨(t, label), mem_of_lookup h, rfl⟩)
  rw [labelledJson, Entries.lookup_merge, lookup_eq_of_mem once listed]
  rfl

end Encodes

end TypeGraph
end LinkedSchema
