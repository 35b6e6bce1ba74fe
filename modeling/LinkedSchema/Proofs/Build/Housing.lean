import LinkedSchema.Proofs.Build.Outcomes
import LinkedSchema.Proofs.Normalize.Parents
/-! The names that the definitions of a document give in a build. Where no node leads back to
itself, a node gets its name from the first node that is built, whether the way up from it leads
there or ends at the node itself. Copies of nodes get none. -/
namespace LinkedSchema

variable {g h : Graph} {b : Builder} {r i : NodeId} {n : Node} {fuel : Nat} {rules : List Rule}
  {options : Options} {fileName : Option String}

namespace Graph

/-- A graph in which all nodes with a parent belong to the document of the root. -/
structure Housed (g : Graph) (r : NodeId) : Prop where
  closed : g.Closed
  acyclic : g.Acyclic
  inside : r < g.size
  above : ∀ i < g.size, ∀ p ∈ (g.node i).parent, p < i ∧ g.documentRoot p = r

theorem Housed.parentsFirst (housed : g.Housed r) : g.ParentsFirst :=
  fun i inside p parent => (housed.above i inside p parent).1

theorem Housed.orphans (housed : g.Housed r) : g.orphans.Housed r where
  closed i inside s child := by
    rw [size_orphans] at inside ⊢
    rw [node_orphans] at child
    exact housed.closed i inside s child
  acyclic := housed.acyclic.mono fun i j leads => by rwa [node_orphans] at leads
  inside := by
    rw [size_orphans]
    exact housed.inside
  above i _ p parent := by
    rw [node_orphans] at parent
    cases parent

theorem definitions_orphans (closed : g.Closed) (inside : r < g.size) :
    g.orphans.definitions r = g.definitions r := by
  refine definitions_congr closed (Nat.le_of_eq (size_orphans g).symm) (fun i _ => ?_) inside
  rw [node_orphans]
  exact ⟨rfl, rfl⟩

theorem ancestor_congr (same : ∀ i, (h.node i).parent = (g.node i).parent) (fuel i : Nat) :
    h.ancestor fuel i = g.ancestor fuel i := by
  induction fuel generalizing i with
  | zero => rfl
  | succ fuel ih =>
    rw [ancestor, ancestor, same i]
    cases (g.node i).parent with
    | none => rfl
    | some p => exact ih p

/-- Rules leave the parents of nodes as they are. -/
theorem Housed.applyRules (housed : g.Housed r) (listed : ∀ rule ∈ rules, rule ∈ Rule.all)
    (run : Graph.applyRules rules options fileName r g = .ok () h) : h.Housed r := by
  have shrink := fun rule here => Rule.all_shrink rule (listed rule here)
  have blind := fun rule here => Rule.all_blind rule (listed rule here)
  have keeps := applyRules_keeps blind shrink run
  have size : h.size = g.size := (applyRules_ok shrink run).1
  have same (p : NodeId) : h.documentRoot p = g.documentRoot p := by
    rw [documentRoot, size]
    exact ancestor_congr (fun i => (keeps i).1) g.size p
  refine ⟨fun i inside s child => ?_, housed.acyclic.mono fun i => (keeps i).2, ?_,
    fun i inside p parent => ?_⟩
  · rw [size] at inside ⊢
    cases s with
    | node j =>
      have leads := (keeps i).2 j (Node.leadsTo_iff.mpr child)
      exact housed.closed i inside _ (Node.leadsTo_iff.mp leads)
    | bool b => trivial
    | bare v => trivial
  · rw [size]
    exact housed.inside
  · rw [size] at inside
    rw [(keeps i).1] at parent
    rw [same]
    exact housed.above i inside p parent

/-- The way up from a node does not take more steps than there are nodes before it. -/
theorem ParentsFirst.ancestor_eq (first : g.ParentsFirst) : ∀ {fuel more i : Nat}, i < g.size →
    i ≤ fuel → fuel ≤ more → g.ancestor fuel i = g.ancestor more i := by
  intro fuel
  induction fuel with
  | zero =>
    intro more i inside le _
    have top : (g.node i).parent = none := by
      cases parent : (g.node i).parent with
      | none => rfl
      | some p => exact absurd (Nat.lt_of_lt_of_le (first i inside p parent) le) (Nat.not_lt_zero p)
    rw [ancestor_of_none top, ancestor_of_none top]
  | succ fuel ih =>
    intro more i inside le enough
    cases more with
    | zero => exact absurd enough (Nat.not_succ_le_zero fuel)
    | succ more =>
      rw [Graph.ancestor, Graph.ancestor]
      cases parent : (g.node i).parent with
      | none => rfl
      | some p =>
        have before := first i inside p parent
        exact ih (Nat.lt_trans before inside)
          (Nat.le_of_lt_succ (Nat.lt_of_lt_of_le before le)) (Nat.le_of_succ_le_succ enough)

end Graph

namespace Builder

/-- A build below a root, in a graph that it only adds copies of nodes to. What it remembers of
definitions is what they are. -/
structure Rooted (g : Graph) (r : NodeId) (b : Builder) : Prop where
  root : b.root = some r
  size : g.size ≤ b.schemas.size
  kept : ∀ i < g.size, b.schemas.node i = g.node i
  children : ∀ i, ∀ s ∈ (b.schemas.node i).children, s.Below g.size
  above : ∀ i, ∀ p ∈ (b.schemas.node i).parent, p < g.size ∧ g.documentRoot p = r
  cache : ∀ e ∈ b.definitions, (e.1 = r → e.2 = g.definitions r) ∧ e.2.keyOf e.1 = none

namespace Rooted

variable (rooted : b.Rooted g r) (housed : g.Housed r)
include rooted housed

theorem ancestor_eq (inside : i < g.size) : b.schemas.ancestor fuel i = g.ancestor fuel i := by
  induction fuel generalizing i with
  | zero => rfl
  | succ fuel ih =>
    rw [Graph.ancestor, Graph.ancestor, rooted.kept i inside]
    cases parent : (g.node i).parent with
    | none => rfl
    | some p => exact ih (Nat.lt_trans (housed.parentsFirst i inside p parent) inside)

/-- The way up from a node ends at the root, unless it ends at once. -/
theorem documentRoot (i : NodeId) :
    b.schemas.documentRoot i = i ∨ b.schemas.documentRoot i = r := by
  cases parent : (b.schemas.node i).parent with
  | none => exact .inl (Graph.ancestor_of_none parent)
  | some p =>
    obtain ⟨within, same⟩ := rooted.above i p parent
    have inside : i < b.schemas.size := Graph.lt_size_of_parent parent
    have before : p < i := by
      by_cases old : i < g.size
      · rw [rooted.kept i old] at parent
        exact housed.parentsFirst i old p parent
      · exact Nat.lt_of_lt_of_le within (Nat.le_of_not_lt old)
    obtain ⟨more, size⟩ : ∃ more, b.schemas.size = more + 1 :=
      Nat.exists_eq_succ_of_ne_zero (Nat.ne_of_gt (Nat.lt_of_le_of_lt (Nat.zero_le i) inside))
    have enough : p ≤ more := by
      rw [size] at inside
      exact Nat.le_of_lt_succ (Nat.lt_trans before inside)
    have first := housed.parentsFirst
    have up : b.schemas.documentRoot i = b.schemas.ancestor more p := by
      rw [Graph.documentRoot, size, Graph.ancestor, parent]
    refine .inr ?_
    rw [up, rooted.ancestor_eq housed within, ← first.ancestor_eq within (Nat.le_refl p) enough,
      first.ancestor_eq within (Nat.le_refl p) (Nat.le_of_lt within)]
    exact same

theorem acyclic : b.schemas.Acyclic := by
  have below {i j : NodeId} (leads : (b.schemas.node i).LeadsTo j) : j < g.size :=
    rooted.children i _ (Node.leadsTo_iff.mp leads)
  intro i j leads reaches
  have back : g.Reaches j i ∧ i < g.size := by
    have start := below leads
    clear leads
    induction reaches with
    | refl => exact ⟨.refl, start⟩
    | tail _ edge ih =>
      have next := below edge
      rw [Graph.Leads, rooted.kept _ ih.2] at edge
      exact ⟨ih.1.tail edge, next⟩
  rw [rooted.kept i back.2] at leads
  exact housed.acyclic i j leads back.1

theorem definitions_eq : b.schemas.definitions r = g.definitions r := by
  refine Graph.definitions_congr housed.closed rooted.size (fun i inside => ?_) housed.inside
  rw [rooted.kept i inside]
  exact ⟨rfl, rfl⟩

/-- What is found below a node, remembered or collected. -/
theorem get (root : NodeId) : ∃ found definitions,
    b.definitions.get b.schemas root = (found, definitions) ∧
      (root = r → found = g.definitions r) ∧ found.keyOf root = none ∧
        Rooted g r { b with definitions } := by
  unfold DefinitionsCache.get
  cases remembered : b.definitions.lookup root with
  | some found =>
    obtain ⟨whole, none⟩ := rooted.cache _ (mem_of_lookup remembered)
    exact ⟨found, b.definitions, rfl, whole, none, rooted⟩
  | none =>
    have whole : root = r → b.schemas.definitions root = g.definitions r := by
      rintro rfl
      exact rooted.definitions_eq housed
    have none := (rooted.acyclic housed).keyOf_eq_none root
    refine ⟨_, _, rfl, whole, none, { rooted with cache := fun e listed => ?_ }⟩
    rcases List.mem_cons.mp listed with rfl | old
    · exact ⟨whole, none⟩
    · exact rooted.cache e old

end Rooted
end Builder

namespace Build

variable {bad : Fault → Builder → Prop} (rooted : b.Rooted g r) (housed : g.Housed r)
include rooted housed

theorem rooted_keyBelow (i : NodeId) (root : Option NodeId) :
    Ensures b (keyBelow i root) (fun key later => ∃ found definitions,
      key = found.keyOf i ∧ later = { b with definitions } ∧ later.Rooted g r ∧
        (root.getD (b.schemas.documentRoot i) = r → found = g.definitions r) ∧
          found.keyOf (root.getD (b.schemas.documentRoot i)) = none) bad := by
  obtain ⟨found, definitions, made, whole, none, next⟩ :=
    rooted.get housed (root.getD (b.schemas.documentRoot i))
  have found_eq : b.definitions.keyFor b.schemas i root = (found.keyOf i, definitions) := by
    rw [DefinitionsCache.keyFor, made]
  have run : keyBelow i root b = .ok (b.definitions.keyFor b.schemas i root).1
    { b with definitions := (b.definitions.keyFor b.schemas i root).2 } := rfl
  rw [found_eq] at run
  exact ensures_of_ok run ⟨found, definitions, rfl, rfl, next, whole, none⟩

/-- A node has the key that it has below the root. -/
theorem rooted_definitionKey (i : NodeId) :
    Ensures b (definitionKey i) (fun key later => key = (g.definitions r).keyOf i ∧
      later.Rooted g r ∧ ∃ definitions, later = { b with definitions }) bad := by
  unfold definitionKey
  apply (rooted_keyBelow rooted housed i none).bind
  rintro _ _ ⟨found, definitions, rfl, rfl, next, whole, none⟩
  by_cases up : b.schemas.documentRoot i = r
  · rw [whole up]
    cases (g.definitions r).keyOf i with
    | some key => exact ensures_pure ⟨rfl, next, definitions, rfl⟩
    | none =>
      apply ensures_get
      split
      · rename_i root here
        have same : root = r := Option.some.inj (here.symm.trans rooted.root)
        rw [if_pos (by simpa [same] using up.symm)]
        exact ensures_pure ⟨rfl, next, definitions, rfl⟩
      · exact ensures_pure ⟨rfl, next, definitions, rfl⟩
  · have own := (rooted.documentRoot housed i).resolve_right up
    have absent : found.keyOf i = Option.none := by
      have none : found.keyOf (b.schemas.documentRoot i) = Option.none := none
      rwa [own] at none
    rw [absent]
    apply ensures_get
    split
    · rename_i root here
      obtain rfl : root = r := Option.some.inj (here.symm.trans rooted.root)
      rw [if_neg (by simpa using Ne.symm up)]
      refine (rooted_keyBelow next housed i (some root)).mono ?_
      rintro _ _ ⟨found, definitions, rfl, rfl, next, whole, _⟩
      exact ⟨by rw [whole rfl], next, definitions, rfl⟩
    · rename_i here
      cases here.symm.trans rooted.root

end Build
end LinkedSchema
