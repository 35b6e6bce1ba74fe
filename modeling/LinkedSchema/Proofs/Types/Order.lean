import LinkedSchema.Types.Export
import Mathlib.Data.List.Nodup
import Mathlib.Data.List.Perm.Subperm
import Mathlib.Logic.Relation
/-! The order of an export. It lists the types below a root once each, and each one after a type
that it was met from. -/
namespace LinkedSchema
namespace TypeGraph

variable {g : TypeGraph} {root t u : TypeId} {pending met order : List TypeId}

def Refers (g : TypeGraph) (t u : TypeId) : Prop := u ∈ (g.node t).references

def Reaches (g : TypeGraph) : TypeId → TypeId → Prop := Relation.ReflTransGen g.Refers

/-- All types below a root have contents. -/
def Filled (g : TypeGraph) (root : TypeId) : Prop :=
  ∀ t, g.Reaches root t → (g.node t).kind.isSome

/-- What is met for the first time, in order, when the pending types are gone through. -/
inductive Visits (g : TypeGraph) : List TypeId → List TypeId → List TypeId → Prop
  | done {met : List TypeId} : Visits g [] met []
  | again {t : TypeId} {rest met order : List TypeId} :
      t ∈ met → Visits g rest met order → Visits g (t :: rest) met order
  | first {t : TypeId} {rest met order : List TypeId} :
      t ∉ met → Visits g ((g.node t).references ++ rest) (t :: met) order →
      Visits g (t :: rest) met (t :: order)

theorem lt_size_of_filled (filled : (g.node t).kind.isSome) : t < g.size := by
  by_contra outside
  have beyond : g.nodes.size ≤ t := Nat.le_of_not_lt outside
  have unfilled : (g.node t).kind = none := by
    simp [node, Array.getD_eq_getD_getElem?, Array.getElem?_eq_none beyond]
  rw [unfilled] at filled
  cases filled

theorem Filled.lt_size (filled : g.Filled root) (h : g.Reaches root t) : t < g.size :=
  lt_size_of_filled (filled t h)

theorem visits_dropWhile (h : g.Visits (pending.dropWhile met.contains) met order) :
    g.Visits pending met order := by
  induction pending with
  | nil => exact h
  | cons t rest ih =>
    by_cases known : t ∈ met
    · rw [List.dropWhile_cons_of_pos (by simpa using known)] at h
      exact .again known (ih h)
    · rwa [List.dropWhile_cons_of_neg (by simpa using known)] at h

/-- Enough fuel for all types that are not met yet lists all of them that can be reached, unless one
of them is unfilled. -/
theorem orderFrom_ends : ∀ (fuel : Nat) (pending met : List TypeId),
    (∀ t ∈ met, (g.node t).kind.isSome) → met.Nodup → g.size < fuel + met.length →
    (∃ order, g.orderFrom fuel pending met = .ok (met.reverse ++ order) ∧
      g.Visits pending met order ∧ ∀ t ∈ order, (g.node t).kind.isSome) ∨
    (g.orderFrom fuel pending met = .error .unfilledType ∧
      ∃ s ∈ pending, ∃ t, g.Reaches s t ∧ (g.node t).kind = none) := by
  intro fuel
  induction fuel with
  | zero =>
    intro pending met filled once enough
    have inside : met ⊆ List.range g.size := fun t ht =>
      List.mem_range.mpr (lt_size_of_filled (filled t ht))
    have few := (List.subperm_of_subset once inside).length_le
    rw [List.length_range] at few
    omega
  | succ fuel ih =>
    intro pending met filled once enough
    rw [orderFrom]
    cases left : pending.dropWhile met.contains with
    | nil =>
      refine .inl ⟨[], by simp, visits_dropWhile ?_, nofun⟩
      rw [left]
      exact .done
    | cons t rest =>
      have fresh : t ∉ met := by
        have head := List.head?_dropWhile_not met.contains pending
        simpa [left] using head
      have remaining : ∀ u ∈ t :: rest, u ∈ pending := fun u hu =>
        (List.dropWhile_sublist _).subset (left ▸ hu)
      cases kind : (g.node t).kind with
      | none =>
        exact .inr ⟨by simp [kind], t, remaining t List.mem_cons_self, t, .refl, kind⟩
      | some _ =>
        have seen : ∀ u ∈ t :: met, (g.node u).kind.isSome := by
          intro u hu
          rcases List.mem_cons.mp hu with rfl | old
          · simp [kind]
          · exact filled u old
        rcases ih ((g.node t).references ++ rest) (t :: met) seen
          (List.nodup_cons.mpr ⟨fresh, once⟩) (by rw [List.length_cons]; omega) with
          ⟨order, run, visits, all⟩ | ⟨run, s, waiting, u, reached, empty⟩
        · refine .inl ⟨t :: order, ?_, visits_dropWhile (left ▸ .first fresh visits), ?_⟩
          · simpa [kind] using run
          · intro u hu
            rcases List.mem_cons.mp hu with rfl | later
            · exact seen u List.mem_cons_self
            · exact all u later
        · refine .inr ⟨by simpa [kind] using run, ?_⟩
          rcases List.mem_append.mp waiting with edge | later
          · exact ⟨t, remaining t List.mem_cons_self, u, .head edge reached, empty⟩
          · exact ⟨s, remaining s (List.mem_cons_of_mem _ later), u, reached, empty⟩

namespace Visits

theorem fresh (h : g.Visits pending met order) : ∀ u ∈ order, u ∉ met := by
  induction h with
  | done => nofun
  | again _ _ ih => exact ih
  | first new _ ih =>
    intro u hu
    rcases List.mem_cons.mp hu with rfl | later
    · exact new
    · exact fun old => ih u later (List.mem_cons_of_mem _ old)

theorem nodup (h : g.Visits pending met order) : order.Nodup := by
  induction h with
  | done => exact List.nodup_nil
  | again _ _ ih => exact ih
  | first _ rest ih =>
    exact List.nodup_cons.mpr ⟨fun again => rest.fresh _ again List.mem_cons_self, ih⟩

theorem pending_mem (h : g.Visits pending met order) : ∀ u ∈ pending, u ∈ met ∨ u ∈ order := by
  induction h with
  | done => nofun
  | again old _ ih =>
    intro u hu
    rcases List.mem_cons.mp hu with rfl | later
    · exact .inl old
    · exact ih u later
  | first _ _ ih =>
    intro u hu
    rcases List.mem_cons.mp hu with rfl | later
    · exact .inr List.mem_cons_self
    · have := ih u (List.mem_append_right _ later)
      grind

theorem closed (h : g.Visits pending met order) :
    ∀ t ∈ order, ∀ u, g.Refers t u → u ∈ met ∨ u ∈ order := by
  induction h with
  | done => nofun
  | again _ _ ih => exact ih
  | first _ rest ih =>
    intro t ht u edge
    rcases List.mem_cons.mp ht with rfl | later
    · have := rest.pending_mem u (List.mem_append_left _ edge)
      grind
    · have := ih t later u edge
      grind

/-- A type is listed only after another one that refers to it, unless it was pending from the
start. -/
theorem met_from (h : g.Visits pending met order) : ∀ before t after,
    order = before ++ t :: after → t ∈ pending ∨ ∃ p ∈ before, g.Refers p t := by
  induction h with
  | done =>
    intro before t after split
    simp at split
  | again _ _ ih =>
    intro before t after split
    rcases ih before t after split with waiting | found
    · exact .inl (List.mem_cons_of_mem _ waiting)
    · exact .inr found
  | @first s rest met order _ _ ih =>
    intro before t after split
    cases before with
    | nil =>
      cases split
      exact .inl List.mem_cons_self
    | cons head before =>
      cases split
      rcases ih before t after rfl with waiting | ⟨p, hp, edge⟩
      · rcases List.mem_append.mp waiting with edge | later
        · exact .inr ⟨s, List.mem_cons_self, edge⟩
        · exact .inl (List.mem_cons_of_mem _ later)
      · exact .inr ⟨p, List.mem_cons_of_mem _ hp, edge⟩

theorem reaches (h : g.Visits pending met order) (ahead : ∀ t ∈ pending, g.Reaches root t) :
    ∀ t ∈ order, g.Reaches root t := by
  induction h with
  | done => nofun
  | again _ _ ih => exact ih fun t ht => ahead t (List.mem_cons_of_mem _ ht)
  | @first s rest _ _ _ _ ih =>
    have here := ahead s List.mem_cons_self
    intro t ht
    rcases List.mem_cons.mp ht with rfl | later
    · exact here
    · refine ih (fun u hu => ?_) t later
      rcases List.mem_append.mp hu with edge | waiting
      · exact here.tail edge
      · exact ahead u (List.mem_cons_of_mem _ waiting)

/-- The types listed below a root are those that can be reached from it. -/
theorem mem_iff (h : g.Visits [root] [] order) : t ∈ order ↔ g.Reaches root t := by
  constructor
  · refine h.reaches (fun u hu => ?_) t
    rw [List.mem_singleton.mp hu]
    exact .refl
  · intro reached
    induction reached with
    | refl => simpa using h.pending_mem root List.mem_cons_self
    | tail _ edge ih => simpa using h.closed _ ih _ edge

theorem mem_of_refers (h : g.Visits [root] [] order) (listed : t ∈ order) (edge : g.Refers t u) :
    u ∈ order := by
  simpa using h.closed t listed u edge

theorem length_le (h : g.Visits [root] [] order) (filled : g.Filled root) :
    order.length ≤ g.size := by
  have inside : order ⊆ List.range g.size := fun u hu =>
    List.mem_range.mpr (filled.lt_size (h.mem_iff.mp hu))
  simpa using (List.subperm_of_subset h.nodup inside).length_le

end Visits

/-- The order of the types below a root is found, unless one of them is unfilled. More fuel than
there are types changes nothing. -/
theorem orderFrom_root {fuel : Nat} (enough : g.size < fuel) :
    (∃ order, g.orderFrom fuel [root] [] = .ok order ∧ g.Visits [root] [] order ∧
      g.Filled root) ∨
    (g.orderFrom fuel [root] [] = .error .unfilledType ∧ ¬ g.Filled root) := by
  rcases orderFrom_ends fuel [root] [] nofun List.nodup_nil (by simpa using enough) with
    ⟨order, run, visits, all⟩ | ⟨run, s, hs, t, reached, empty⟩
  · exact .inl ⟨order, by simpa using run, visits, fun t reached => all t (visits.mem_iff.mpr reached)⟩
  · refine .inr ⟨run, fun filled => ?_⟩
    rw [List.mem_singleton.mp hs] at reached
    simpa [empty] using filled t reached

theorem order_visits (filled : g.Filled root) :
    ∃ order, g.order root = .ok order ∧ g.Visits [root] [] order := by
  rcases orderFrom_root (Nat.lt_succ_self g.size) with ⟨order, run, visits, _⟩ | ⟨_, unfilled⟩
  · exact ⟨order, run, visits⟩
  · exact absurd filled unfilled

/-- An export below a root all of whose types have contents is never refused. -/
theorem toJson_ok (filled : g.Filled root) : ∃ json, g.toJson root = .ok json := by
  obtain ⟨order, run, _⟩ := order_visits filled
  rw [toJson, run]
  exact ⟨_, rfl⟩

theorem Filled.of_reaches (filled : g.Filled root) (h : g.Reaches root t) : g.Filled t :=
  fun u reached => filled u (h.trans reached)

end TypeGraph
end LinkedSchema
