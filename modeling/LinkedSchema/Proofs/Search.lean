import Mathlib.Data.List.Basic
import Mathlib.Logic.Relation
/-! Depth-first search, whatever is searched. A search follows edges in order; an edge to something
new is followed by all that is new below it, before its own neighbours have their turn. -/
namespace LinkedSchema

variable {ν ε : Type} {next : ν → List ε} {target : ε → ν} {met pending order : List ε} {e : ε}

/-- The edges by which a search first meets what it finds, in order. The first list has the edges
by which things were met before, the second one those that are still to be followed. -/
inductive DepthFirst (next : ν → List ε) (target : ε → ν) : List ε → List ε → List ε → Prop
  | done {met : List ε} : DepthFirst next target met [] []
  | known {met rest order : List ε} {e : ε} : target e ∈ met.map target →
      DepthFirst next target met rest order → DepthFirst next target met (e :: rest) order
  | enter {met rest below after : List ε} {e : ε} : target e ∉ met.map target →
      DepthFirst next target (e :: met) (next (target e)) below →
      DepthFirst next target (below.reverse ++ e :: met) rest after →
      DepthFirst next target met (e :: rest) (e :: below ++ after)

namespace DepthFirst

/-- The only edge to start with is the first one that is followed. -/
theorem head {rest : List ε} (h : DepthFirst next target [] (e :: rest) order) :
    order[0]? = some e := by
  cases h with
  | known old => cases old
  | enter => rfl

/-- A search of two lists of edges is a search of the first and then one of the second. -/
theorem split {xs ys : List ε} (h : DepthFirst next target met (xs ++ ys) order) :
    ∃ below after, order = below ++ after ∧ DepthFirst next target met xs below ∧
      DepthFirst next target (below.reverse ++ met) ys after := by
  induction xs generalizing met order with
  | nil => exact ⟨[], order, rfl, .done, h⟩
  | cons x xs ih =>
    cases h with
    | known old rest =>
      obtain ⟨below, after, rfl, first, last⟩ := ih rest
      exact ⟨below, after, rfl, .known old first, last⟩
    | @enter _ _ inner after _ new under rest =>
      obtain ⟨below, after, rfl, first, last⟩ := ih rest
      refine ⟨x :: inner ++ below, after, by simp, .enter new under first, ?_⟩
      simpa using last

theorem append {xs ys below after : List ε} (first : DepthFirst next target met xs below)
    (last : DepthFirst next target (below.reverse ++ met) ys after) :
    DepthFirst next target met (xs ++ ys) (below ++ after) := by
  induction first generalizing after with
  | done => exact last
  | known old _ ih => exact .known old (ih last)
  | @enter met rest inner below e new under _ _ ih =>
    have last : DepthFirst next target (below.reverse ++ (inner.reverse ++ e :: met)) ys after := by
      simpa using last
    have whole := DepthFirst.enter new under (ih last)
    simpa using whole

/-- What is below is found before what comes next. -/
theorem visit {rest new : List ε} (fresh : target e ∉ met.map target)
    (h : DepthFirst next target (e :: met) (next (target e) ++ rest) new) :
    DepthFirst next target met (e :: rest) (e :: new) := by
  obtain ⟨below, after, rfl, under, last⟩ := h.split
  exact .enter fresh under last

/-- Every edge that something is found by is one to start with, or leads there from what was found
earlier. -/
theorem sourced (h : DepthFirst next target met pending order) :
    ∀ before f after, order = before ++ f :: after →
      f ∈ pending ∨ ∃ u ∈ before, f ∈ next (target u) := by
  induction h with
  | done =>
    intro before f after same
    simp at same
  | known _ _ ih =>
    intro before f after same
    exact (ih before f after same).imp_left (List.mem_cons_of_mem _)
  | @enter _ rest below later e _ _ _ ihUnder ihRest =>
    intro before f after same
    cases before with
    | nil =>
      cases same
      exact .inl List.mem_cons_self
    | cons b before =>
      obtain ⟨rfl, tail⟩ := List.cons.inj same
      rcases List.append_eq_append_iff.mp tail with ⟨inner, rfl, split⟩ | ⟨inner, rfl, split⟩
      · rcases ihRest inner f after split with start | ⟨u, hu, leads⟩
        · exact .inl (List.mem_cons_of_mem _ start)
        · exact .inr ⟨u, by simp [hu], leads⟩
      · cases inner with
        | nil =>
          rcases ihRest [] f after split.symm with start | ⟨u, hu, _⟩
          · exact .inl (List.mem_cons_of_mem _ start)
          · cases hu
        | cons first inner =>
          obtain ⟨rfl, _⟩ := List.cons_eq_cons.mp split
          rcases ihUnder before f inner rfl with start | ⟨u, hu, leads⟩
          · exact .inr ⟨e, List.mem_cons_self, start⟩
          · exact .inr ⟨u, List.mem_cons_of_mem _ hu, leads⟩

theorem fresh (h : DepthFirst next target met pending order) :
    ∀ f ∈ order, target f ∉ met.map target := by
  induction h with
  | done => exact nofun
  | known _ _ ih => exact ih
  | @enter met rest below after e new _ _ ihUnder ihRest =>
    intro f hf old
    rcases List.mem_append.mp hf with hf | hf
    · rcases List.mem_cons.mp hf with rfl | hf
      · exact new old
      · exact ihUnder f hf (List.mem_cons_of_mem _ old)
    · refine ihRest f hf ?_
      rw [List.map_append]
      exact List.mem_append_right _ (List.mem_cons_of_mem _ old)

/-- Nothing is found twice. -/
theorem nodup (h : DepthFirst next target met pending order) : (order.map target).Nodup := by
  induction h with
  | done => exact List.nodup_nil
  | known _ _ ih => exact ih
  | @enter met rest below after e new under later ihUnder ihRest =>
    rw [List.map_append, List.nodup_append]
    refine ⟨List.nodup_cons.mpr ⟨fun again => ?_, ihUnder⟩, ihRest, ?_⟩
    · obtain ⟨f, hf, same⟩ := List.mem_map.mp again
      exact under.fresh f hf (List.mem_cons.mpr (.inl same))
    · rintro x hx y hy rfl
      obtain ⟨f, hf, rfl⟩ := List.mem_map.mp hy
      refine later.fresh f hf ?_
      rw [List.map_append, List.mem_append, List.map_reverse, List.mem_reverse]
      rcases List.mem_cons.mp hx with same | hx
      · exact .inr (List.mem_cons.mpr (.inl same))
      · exact .inl hx

/-- What is pending is found in the end, or was before. -/
theorem covered (h : DepthFirst next target met pending order) :
    ∀ f ∈ pending, target f ∈ met.map target ∨ target f ∈ order.map target := by
  induction h with
  | done => exact nofun
  | known old _ ih =>
    intro f hf
    rcases List.mem_cons.mp hf with rfl | hf
    · exact .inl old
    · exact ih f hf
  | @enter met rest below after e _ _ _ _ ihRest =>
    intro f hf
    rcases List.mem_cons.mp hf with rfl | hf
    · exact .inr List.mem_cons_self
    · have found := ihRest f hf
      simp only [List.map_append, List.map_cons, List.map_reverse, List.mem_append,
        List.mem_cons, List.mem_reverse] at found ⊢
      tauto

/-- What is found leads only to what is found in the end, or was before. -/
theorem closed (h : DepthFirst next target met pending order) :
    ∀ u ∈ order, ∀ f ∈ next (target u),
      target f ∈ met.map target ∨ target f ∈ order.map target := by
  induction h with
  | done => exact nofun
  | known _ _ ih => exact ih
  | @enter met rest below after e _ under _ ihUnder ihRest =>
    intro u hu f hf
    have found : target f ∈ (e :: met).map target ∨ target f ∈ below.map target ∨
        target f ∈ after.map target := by
      rcases List.mem_append.mp hu with hu | hu
      · rcases List.mem_cons.mp hu with rfl | hu
        · exact (under.covered f hf).imp_right .inl
        · exact (ihUnder u hu f hf).imp_right .inl
      · have later := ihRest u hu f hf
        rw [List.map_append, List.map_reverse, List.mem_append, List.mem_reverse] at later
        tauto
    simp only [List.map_append, List.map_cons, List.mem_append, List.mem_cons] at found ⊢
    tauto

/-- One of the edges from the first to the second. -/
def Step (next : ν → List ε) (target : ε → ν) (u v : ν) : Prop := ∃ f ∈ next u, target f = v

/-- What is pending leads to all that is found. -/
theorem reached (h : DepthFirst next target met pending order) :
    ∀ u ∈ order, ∃ f ∈ pending, Relation.ReflTransGen (Step next target) (target f) (target u) := by
  induction h with
  | done => exact nofun
  | known _ _ ih =>
    intro u hu
    obtain ⟨f, hf, leads⟩ := ih u hu
    exact ⟨f, List.mem_cons_of_mem _ hf, leads⟩
  | @enter met rest below after e _ _ _ ihUnder ihRest =>
    intro u hu
    rcases List.mem_append.mp hu with hu | hu
    · rcases List.mem_cons.mp hu with rfl | hu
      · exact ⟨u, List.mem_cons_self, .refl⟩
      · obtain ⟨f, hf, leads⟩ := ihUnder u hu
        exact ⟨e, List.mem_cons_self, .head ⟨f, hf, rfl⟩ leads⟩
    · obtain ⟨f, hf, leads⟩ := ihRest u hu
      exact ⟨f, List.mem_cons_of_mem _ hf, leads⟩

/-- A search from one edge finds just what can be reached from there. -/
theorem found_iff {x : ν} (h : DepthFirst next target [] [e] order) :
    x ∈ order.map target ↔ Relation.ReflTransGen (Step next target) (target e) x := by
  refine ⟨fun found => ?_, fun leads => ?_⟩
  · obtain ⟨u, hu, rfl⟩ := List.mem_map.mp found
    obtain ⟨f, hf, leads⟩ := h.reached u hu
    cases List.mem_singleton.mp hf
    exact leads
  · induction leads with
    | refl => exact (h.covered e List.mem_cons_self).resolve_left nofun
    | tail _ step ih =>
      obtain ⟨u, hu, rfl⟩ := List.mem_map.mp ih
      obtain ⟨f, hf, rfl⟩ := step
      exact (h.closed u hu f hf).resolve_left nofun

/-- What is done about the only edge that is pending. -/
theorem single (h : DepthFirst next target met [e] order) :
    (target e ∈ met.map target ∧ order = []) ∨
      ∃ below, order = e :: below ∧ target e ∉ met.map target ∧
        DepthFirst next target (e :: met) (next (target e)) below := by
  cases h with
  | known old rest =>
    cases rest
    exact .inl ⟨old, rfl⟩
  | @enter _ _ below _ _ new under rest =>
    cases rest
    exact .inr ⟨below, by simp, new, under⟩

/-- Things that lead to one another only can be searched. -/
theorem exists_of_closed {all : List ν} (closed : ∀ v ∈ all, ∀ f ∈ next v, target f ∈ all)
    (pending : List ε) (among : ∀ f ∈ pending, target f ∈ all) (met : List ε) :
    ∃ order, DepthFirst next target met pending order := by
  -- by induction on how many are not met yet, and then on the edges to be followed
  have each : ∀ (bound : Nat) (left : List ν), left.length ≤ bound → ∀ (pending met : List ε),
      (∀ f ∈ pending, target f ∈ all) → (∀ v ∈ all, v ∈ met.map target ∨ v ∈ left) →
      ∃ order, DepthFirst next target met pending order := by
    intro bound
    induction bound with
    | zero =>
      intro left few pending met among split
      induction pending with
      | nil => exact ⟨[], .done⟩
      | cons f rest ih =>
        obtain ⟨order, found⟩ := ih fun d listed => among d (List.mem_cons_of_mem _ listed)
        have none : left = [] := List.eq_nil_of_length_eq_zero (Nat.le_zero.mp few)
        have old := (split _ (among f List.mem_cons_self)).resolve_right (by simp [none])
        exact ⟨order, .known old found⟩
    | succ bound ihBound =>
      intro left few pending met among split
      induction pending with
      | nil => exact ⟨[], .done⟩
      | cons f rest ih =>
        have others : ∀ d ∈ rest, target d ∈ all := fun d listed =>
          among d (List.mem_cons_of_mem _ listed)
        by_cases old : target f ∈ met.map target
        · obtain ⟨order, found⟩ := ih others
          exact ⟨order, .known old found⟩
        · have here : target f ∈ all := among f List.mem_cons_self
          obtain ⟨before, after, rfl⟩ :=
            List.append_of_mem ((split _ here).resolve_left old)
          have fewer : (before ++ after).length ≤ bound := by
            simp only [List.length_append, List.length_cons] at few ⊢
            omega
          have apart : ∀ more : List ε, ∀ v ∈ all,
              v ∈ (more ++ f :: met).map target ∨ v ∈ before ++ after := by
            intro more v listed
            have now := split v listed
            simp only [List.map_append, List.map_cons, List.mem_append, List.mem_cons] at now ⊢
            tauto
          obtain ⟨below, under⟩ :=
            ihBound _ fewer (next (target f)) (f :: met) (closed _ here) (apart [])
          obtain ⟨later, found⟩ := ihBound _ fewer rest _ others (apart below.reverse)
          exact ⟨_, .enter old under found⟩
  exact each all.length all (Nat.le_refl _) pending met among fun v listed => .inr listed

end DepthFirst
end LinkedSchema
