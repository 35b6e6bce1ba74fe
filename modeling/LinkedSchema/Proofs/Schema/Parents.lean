import LinkedSchema.Schema.Ingest
/-! Parent links. Ingestion gives every node a parent that was there before it, so the way up from
a node ends at the root of its document. -/
namespace LinkedSchema

variable {g : Graph} {α β : Type}

/-- A parent stands before the nodes below it. -/
def Graph.ParentsFirst (g : Graph) : Prop := ∀ i < g.size, ∀ p ∈ (g.node i).parent, p < i

instance (g : Graph) : Decidable g.ParentsFirst :=
  inferInstanceAs (Decidable (∀ i < g.size, ∀ p ∈ (g.node i).parent, p < i))

namespace Graph

theorem ParentsFirst.ancestor (first : g.ParentsFirst) : ∀ (fuel i : Nat), i ≤ fuel →
    i < g.size → (g.node (g.ancestor fuel i)).parent = none := by
  intro fuel
  induction fuel with
  | zero =>
    intro i le inside
    have zero := Nat.le_zero.mp le
    subst zero
    cases parent : (g.node 0).parent with
    | none => exact parent
    | some p => exact absurd (first 0 inside p parent) (Nat.not_lt_zero p)
  | succ fuel ih =>
    intro i le inside
    rw [Graph.ancestor]
    cases parent : (g.node i).parent with
    | none => exact parent
    | some p =>
      have above := first i inside p parent
      exact ih p (Nat.le_of_lt_succ (Nat.lt_of_lt_of_le above le)) (Nat.lt_trans above inside)

/-- The way up that the root of a document is found by has an end. -/
theorem ParentsFirst.documentRoot (first : g.ParentsFirst) {i : NodeId} (inside : i < g.size) :
    (g.node (g.documentRoot i)).parent = none :=
  first.ancestor g.size i (Nat.le_of_lt inside) inside

theorem ParentsFirst.push (first : g.ParentsFirst) {n : Node}
    (above : ∀ p ∈ n.parent, p < g.size) : (g.push n).ParentsFirst := by
  intro i inside p parent
  rw [Graph.size_push] at inside
  rcases Nat.lt_succ_iff_lt_or_eq.mp inside with old | rfl
  · rw [Graph.node_push_of_lt old] at parent
    exact first i old p parent
  · rw [Graph.node_push_self] at parent
    exact above p parent

theorem ParentsFirst.set (first : g.ParentsFirst) {i : NodeId} {n : Node}
    (above : ∀ p ∈ n.parent, p < i) : (g.set i n).ParentsFirst := by
  intro j inside p parent
  rw [Graph.size_set] at inside
  by_cases same : i = j
  · subst same
    rw [Graph.node_set_self inside] at parent
    exact above p parent
  · rw [Graph.node_set_ne same] at parent
    exact first j inside p parent

end Graph

namespace Ingestion

/-- A step that leaves parents before their nodes, in a graph of at least that size. -/
def Keeps (least : Nat) (step : Ingestion α) (post : α → Prop) : Prop :=
  ∀ s a later, step.run s = .ok (a, later) → least ≤ s.graph.size → s.graph.ParentsFirst →
    later.graph.ParentsFirst ∧ s.graph.size ≤ later.graph.size ∧ post a

variable {least : Nat} {object : Json → Ingestion NodeId} {keyword : String} {v : Json}
  {fields : Entries Json}

theorem Keeps.pure {post : α → Prop} {a : α} (holds : post a) :
    Keeps least (Pure.pure a : Ingestion α) post := by
  intro s b later run _ first
  cases run
  exact ⟨first, Nat.le_refl _, holds⟩

theorem Keeps.throw {post : α → Prop} {e : Refusal} :
    Keeps least (MonadExcept.throw e : Ingestion α) post := by
  intro s a later run
  cases run

theorem keeps_get : Keeps least (get : Ingestion Intake) fun _ => True := by
  intro s a later run _ first
  cases run
  exact ⟨first, Nat.le_refl _, trivial⟩

theorem Keeps.bind {step : Ingestion α} {next : α → Ingestion β} {post : α → Prop}
    {last : β → Prop} (first : Keeps least step post)
    (rest : ∀ a, post a → Keeps least (next a) last) : Keeps least (step >>= next) last := by
  intro s b later run enough parents
  rw [StateT.run_bind] at run
  cases half : step.run s with
  | error e =>
    rw [half] at run
    cases run
  | ok made =>
    rw [half] at run
    obtain ⟨parents', grown, holds⟩ := first s made.1 made.2 half enough parents
    obtain ⟨parents'', more, done⟩ :=
      rest made.1 holds made.2 b later run (Nat.le_trans enough grown) parents'
    exact ⟨parents'', Nat.le_trans grown more, done⟩

theorem Keeps.mapM {f : α → Ingestion β} (each : ∀ a, Keeps least (f a) fun _ => True)
    (xs : List α) : Keeps least (xs.mapM f) fun _ => True := by
  induction xs with
  | nil => exact .pure trivial
  | cons x xs ih =>
    rw [List.mapM_cons]
    exact (each x).bind fun _ _ => ih.bind fun _ _ => .pure trivial

section

variable (objects : ∀ v, Keeps least (object v) fun _ => True)
include objects

theorem keeps_subschema : Keeps least (subschema object keyword v) fun _ => True := by
  cases v with
  | bool b => exact .pure trivial
  | obj entries => exact (objects _).bind fun _ _ => .pure trivial
  | _ => exact .throw

theorem keeps_members : Keeps least (members object keyword v) fun _ => True := by
  cases v with
  | arr values => exact .mapM (fun _ => keeps_subschema objects) values
  | _ => exact .throw

theorem keeps_entries : Keeps least (entries object keyword v) fun _ => True := by
  cases v with
  | obj values =>
    exact .mapM (fun _ => (keeps_subschema objects).bind fun _ _ => .pure trivial) values
  | _ => exact .throw

theorem keeps_items : Keeps least (items object v) fun _ => True := by
  cases v with
  | arr values => exact (keeps_members objects).bind fun _ _ => .pure trivial
  | _ => exact (keeps_subschema objects).bind fun _ _ => .pure trivial

theorem keeps_bases : Keeps least (bases object v) fun _ => True := by
  cases v with
  | null => exact .pure trivial
  | arr values => exact (keeps_members objects).bind fun _ _ => .pure trivial
  | _ => exact (keeps_subschema objects).bind fun _ _ => .pure trivial

end

theorem keeps_optional {read : String → Json → Ingestion α}
    (reads : ∀ v, Keeps least (read keyword v) fun _ => True) :
    Keeps least (optional fields keyword read) fun _ => True := by
  unfold optional
  split
  · rename_i v _
    exact (reads v).bind fun _ _ => .pure trivial
  · exact .pure trivial

theorem keeps_node {parent : Option NodeId}
    (objects : ∀ v, Keeps least (object v) fun _ => True) :
    Keeps least (node object parent fields) fun n => n.parent = parent := by
  apply (keeps_optional fun _ => keeps_subschema objects).bind
  intro additionalProperties _
  apply (keeps_optional fun _ => keeps_subschema objects).bind
  intro additionalItems _
  apply (keeps_optional fun _ => keeps_members objects).bind
  intro allOf _
  apply (keeps_optional fun _ => keeps_members objects).bind
  intro anyOf _
  apply (keeps_optional fun _ => keeps_members objects).bind
  intro oneOf _
  apply (keeps_optional fun _ => keeps_entries objects).bind
  intro properties _
  apply (keeps_optional fun _ => keeps_entries objects).bind
  intro patternProperties _
  apply (keeps_optional fun _ => keeps_items objects).bind
  intro items _
  apply (keeps_optional fun _ => keeps_bases objects).bind
  intro bases _
  apply (keeps_optional fun _ => keeps_entries objects).bind
  intro definitions _
  apply (keeps_optional fun _ => keeps_entries objects).bind
  intro defs _
  exact .pure rfl

/-- The node of an object is reserved below its parent, and keeps the parent when it is finished. -/
theorem keeps_reserved {parent : Option NodeId} {name : Option String}
    {rest : NodeId → Ingestion Node} (above : ∀ p ∈ parent, p < least)
    (nodes : ∀ i, Keeps (i + 1) (rest i) fun n => n.parent = parent) :
    Keeps least (do
      let i ← reserve parent name
      finish i (← rest i)
      return i) fun _ => True := by
  intro s a later run enough first
  let reserved : Intake :=
    { graph := s.graph.push { parent }
      linked := (name.map (·, s.graph.size)).toList ++ s.linked }
  have steps : (do
      let i ← reserve parent name
      finish i (← rest i)
      return i : Ingestion NodeId).run s =
        (rest s.graph.size).run reserved >>= fun made => .ok (s.graph.size,
          { made.2 with graph := made.2.graph.set s.graph.size made.1 }) := rfl
  rw [steps] at run
  have above' : ∀ p ∈ parent, p < s.graph.size := fun p h => Nat.lt_of_lt_of_le (above p h) enough
  have begun : reserved.graph.ParentsFirst := first.push above'
  have size : reserved.graph.size = s.graph.size + 1 := by simp [reserved]
  cases half : (rest s.graph.size).run reserved with
  | error e =>
    rw [half] at run
    cases run
  | ok made =>
    rw [half] at run
    obtain ⟨parents, grown, same⟩ :=
      nodes _ reserved made.1 made.2 half (Nat.le_of_eq size.symm) begun
    cases run
    refine ⟨parents.set (by rwa [same]), ?_, trivial⟩
    simp only [Graph.size_set]
    omega

theorem keeps_object {d : Document} : ∀ (fuel : Nat) (parent : Option NodeId) (v : Json) (least : Nat),
    (∀ p ∈ parent, p < least) → Keeps least (Ingestion.object d fuel parent v) fun _ => True := by
  intro fuel
  induction fuel with
  | zero => exact fun _ _ _ _ => .throw
  | succ fuel ih =>
    intro parent v least above
    have nodes : ∀ fields i, Keeps (i + 1)
        (node (Ingestion.object d fuel (some i)) parent fields) fun n => n.parent = parent := by
      intro fields i
      refine keeps_node fun v => ih (some i) v (i + 1) ?_
      intro p hp
      cases hp
      exact Nat.lt_succ_self i
    unfold Ingestion.object
    split
    · split
      · exact .throw
      · apply keeps_get.bind
        intro s _
        split
        · exact .pure trivial
        · exact keeps_reserved above (nodes _)
    · exact keeps_reserved above (nodes _)
    · exact .throw

end Ingestion

/-- Ingestion adds nodes whose parents were there before. -/
theorem Document.parentsFirst_ingest {d : Document} (first : g.ParentsFirst) {i : NodeId}
    {later : Graph} (run : d.ingest g = .ok i later) : later.ParentsFirst := by
  unfold Document.ingest at run
  split at run
  · rename_i j s made
    cases run
    exact (Ingestion.keeps_object _ none _ 0 nofun _ _ _ made (Nat.zero_le _) first).1
  · cases run

end LinkedSchema
