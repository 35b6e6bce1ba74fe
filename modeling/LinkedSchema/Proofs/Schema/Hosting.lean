import LinkedSchema.Proofs.Schema.Renumbering
import LinkedSchema.Schema.Ingest
/-! Graphs that host the nodes of another graph after a first node of their own. A schema that is
ingested below a node is ingested as it is by itself, one number further on. -/
namespace LinkedSchema

variable {g h : Graph} {n m : Node} {i : NodeId} {s t : Intake} {α β γ δ : Type}
  {d e : Document} {fields : Entries Json} {keyword : String} {v : Json} {parent : Option NodeId}

namespace Graph

/-- After its first node, the host has the nodes of a guest, whatever their parents, each with the
next number. -/
structure Hosts (h g : Graph) : Prop where
  size : h.size = g.size + 1
  node : ∀ i, (h.node (i + 1)).Echoes (· + 1) (g.node i)

namespace Hosts

theorem inside (hosts : h.Hosts g) : 0 < h.size := by
  rw [hosts.size]
  exact Nat.succ_pos _

theorem lt_size (hosts : h.Hosts g) : i + 1 < h.size ↔ i < g.size := by
  rw [hosts.size]
  exact Nat.succ_lt_succ_iff

/-- A first node, and no guests yet. -/
theorem alone (n : Node) : Hosts (Graph.push .empty n) .empty where
  size := rfl
  node i := by
    have beyond : (Graph.push .empty n).size ≤ i + 1 := Nat.succ_le_succ (Nat.zero_le i)
    rw [node_of_le beyond, node_of_le (Nat.zero_le i)]
    exact ⟨none, rfl⟩

theorem set (hosts : h.Hosts g) (i : NodeId) (echoes : m.Echoes (· + 1) n) :
    (h.set (i + 1) m).Hosts (g.set i n) where
  size := by rw [size_set, size_set, hosts.size]
  node j := by
    by_cases same : i = j
    · subst same
      by_cases inside : i < g.size
      · rw [node_set_self (hosts.lt_size.mpr inside), node_set_self inside]
        exact echoes
      · have beyond : g.size ≤ i := Nat.le_of_not_lt inside
        have outside : h.size ≤ i + 1 := hosts.size ▸ Nat.succ_le_succ beyond
        rw [node_of_le (by rwa [size_set]), node_of_le (by rwa [size_set])]
        exact ⟨none, rfl⟩
    · rw [node_set_ne same, node_set_ne fun next => same (Nat.succ.inj next)]
      exact hosts.node j

/-- Only guests are changed. -/
theorem set_first (hosts : h.Hosts g) (m : Node) : (h.set 0 m).Hosts g where
  size := by rw [size_set, hosts.size]
  node j := by
    rw [node_set_ne (Nat.succ_ne_zero j).symm]
    exact hosts.node j

theorem push (hosts : h.Hosts g) (echoes : m.Echoes (· + 1) n) : (h.push m).Hosts (g.push n) where
  size := by rw [size_push, size_push, hosts.size]
  node j := by
    rcases Nat.lt_trichotomy j g.size with old | rfl | beyond
    · rw [node_push_of_lt old, node_push_of_lt (hosts.lt_size.mpr old)]
      exact hosts.node j
    · have here : (h.push m).node (g.size + 1) = m := by rw [← hosts.size, node_push_self]
      rw [node_push_self, here]
      exact echoes
    · have outside : (h.push m).size ≤ j + 1 := by
        rw [size_push, hosts.size]
        exact Nat.succ_le_succ beyond
      rw [node_of_le outside, node_of_le (by rwa [size_push])]
      exact ⟨none, rfl⟩

end Hosts
end Graph

/-- The intake that hosts another one knows the nodes of the same parts. -/
structure Intake.Hosts (t s : Intake) : Prop where
  graph : t.graph.Hosts s.graph
  linked : t.linked = s.linked.map fun e => (e.1, e.2 + 1)

theorem Entries.renumber_put (f : NodeId → NodeId) (entries : Entries Subschema) (name : String)
    (s : Subschema) :
    (entries.put name s).renumber f = put (entries.renumber f) name (s.renumber f) := by
  induction entries with
  | nil => rfl
  | cons e rest ih =>
    obtain ⟨key, old⟩ := e
    unfold Entries.put
    by_cases same : key == name
    · simp [same, renumber]
    · simp only [renumber] at ih
      simp [same, renumber, ih]

theorem Entries.renumber_merge (f : NodeId → NodeId) (entries more : Entries Subschema) :
    (entries.merge more).renumber f = merge (entries.renumber f) (more.renumber f) := by
  induction more generalizing entries with
  | nil => rfl
  | cons e more ih =>
    refine (ih (entries.put e.1 e.2)).trans ?_
    rw [renumber_put]
    rfl

theorem lookup_map {κ : Type} [BEq κ] [LawfulBEq κ] {f : κ → κ} (injective : Function.Injective f)
    (k : α → β) (xs : List (κ × α)) (key : κ) :
    (xs.map fun e => (f e.1, k e.2)).lookup (f key) = (xs.lookup key).map k := by
  induction xs with
  | nil => rfl
  | cons x xs ih =>
    obtain ⟨other, a⟩ := x
    have same : (f key == f other) = (key == other) := by
      rw [Bool.eq_iff_iff, beq_iff_eq, beq_iff_eq, injective.eq_iff]
    rw [List.map_cons, List.lookup_cons, List.lookup_cons, same]
    cases key == other with
    | true => rfl
    | false => exact ih

namespace Ingestion

/-- Wherever the first step succeeds, the second one does the same to an intake that hosts the state
of the first one, with a result that is told by that of the first one. -/
def Shadows (f : α → β) (x : Ingestion α) (y : Ingestion β) : Prop :=
  ∀ s t a s', t.Hosts s → x.run s = .ok (a, s') → ∃ t', y.run t = .ok (f a, t') ∧ t'.Hosts s'

theorem shadows_pure (f : α → β) (a : α) : Shadows f (pure a) (pure (f a)) := by
  rintro s t _ _ hosts run
  cases run
  exact ⟨t, rfl, hosts⟩

theorem shadows_throw {f : α → β} (e : Refusal) (y : Ingestion β) : Shadows f (throw e) y :=
  fun _ _ _ _ _ run => by cases run

theorem shadows_get {k : γ → δ} {next : Intake → Ingestion γ} {last : Intake → Ingestion δ}
    (rest : ∀ s t, t.Hosts s → Shadows k (next s) (last t)) :
    Shadows k (get >>= next) (get >>= last) :=
  fun s t a s' hosts run => rest s t hosts s t a s' hosts run

theorem Shadows.bind {f : α → β} {k : γ → δ} {x : Ingestion α} {y : Ingestion β}
    {next : α → Ingestion γ} {last : β → Ingestion δ} (first : Shadows f x y)
    (rest : ∀ a, Shadows k (next a) (last (f a))) : Shadows k (x >>= next) (y >>= last) := by
  intro s t c s'' hosts run
  rw [StateT.run_bind] at run ⊢
  cases half : x.run s with
  | error e =>
    rw [half] at run
    cases run
  | ok made =>
    rw [half] at run
    obtain ⟨t', here, hosts'⟩ := first s t made.1 made.2 hosts half
    obtain ⟨t'', there, hosts''⟩ := rest made.1 made.2 t' c s'' hosts' run
    refine ⟨t'', ?_, hosts''⟩
    rw [here]
    exact there

theorem shadows_mapM {f : α → β} {x : γ → Ingestion α} {y : γ → Ingestion β}
    (each : ∀ c, Shadows f (x c) (y c)) (cs : List γ) :
    Shadows (List.map f) (cs.mapM x) (cs.mapM y) := by
  induction cs with
  | nil => exact shadows_pure _ []
  | cons c cs ih =>
    rw [List.mapM_cons, List.mapM_cons]
    exact (each c).bind fun a => ih.bind fun as => shadows_pure _ (a :: as)

theorem shadows_optional {f : α → β} {x : String → Json → Ingestion α}
    {y : String → Json → Ingestion β} (each : ∀ v, Shadows f (x keyword v) (y keyword v)) :
    Shadows (Option.map f) (optional fields keyword x) (optional fields keyword y) := by
  unfold optional
  split
  · exact (each _).bind fun a => shadows_pure _ (some a)
  · exact shadows_pure _ none

theorem shadows_reserve (parent above : Option NodeId) (name : Option String) :
    Shadows (· + 1) (reserve parent name) (reserve above name) := by
  rintro s t _ _ hosts run
  cases run
  refine ⟨⟨t.graph.push { parent := above },
    (name.map (·, t.graph.size)).toList ++ t.linked⟩, ?_, hosts.graph.push ⟨above, rfl⟩, ?_⟩
  · show _ = Except.ok (s.graph.size + 1, _)
    rw [← hosts.graph.size]
    rfl
  · rw [hosts.linked, hosts.graph.size]
    cases name <;> rfl

theorem shadows_finish (i : NodeId) (echoes : m.Echoes (· + 1) n) :
    Shadows id (finish i n) (finish (i + 1) m) := by
  rintro s t _ _ hosts run
  cases run
  exact ⟨_, rfl, hosts.graph.set i echoes, hosts.linked⟩

section

variable {x y : Json → Ingestion NodeId} (objects : ∀ v, Shadows (· + 1) (x v) (y v))
include objects

theorem shadows_subschema (v : Json) :
    Shadows (·.renumber (· + 1)) (subschema x keyword v) (subschema y keyword v) := by
  cases v with
  | bool b => exact shadows_pure _ (Subschema.bool b)
  | obj entries => exact (objects _).bind fun i => shadows_pure _ (Subschema.node i)
  | _ => exact shadows_throw _ _

theorem shadows_members (v : Json) : Shadows (List.map (·.renumber (· + 1)))
    (members x keyword v) (members y keyword v) := by
  cases v with
  | arr values => exact shadows_mapM (shadows_subschema objects) values
  | _ => exact shadows_throw _ _

theorem shadows_entries (v : Json) : Shadows (Entries.renumber (· + 1))
    (entries x keyword v) (entries y keyword v) := by
  cases v with
  | obj values =>
    refine shadows_mapM (f := fun e : String × Subschema => (e.1, e.2.renumber (· + 1)))
      (fun e => ?_) values
    exact (shadows_subschema objects e.2).bind fun s => shadows_pure _ (e.1, s)
  | _ => exact shadows_throw _ _

theorem shadows_items (v : Json) :
    Shadows (·.renumber (· + 1)) (items x v) (items y v) := by
  unfold items
  split
  · exact (shadows_members objects _).bind fun items => shadows_pure _ (Items.positions items)
  · exact (shadows_subschema objects _).bind fun item => shadows_pure _ (Items.each item)

theorem shadows_bases (v : Json) :
    Shadows (·.renumber (· + 1)) (bases x v) (bases y v) := by
  unfold bases
  split
  · exact shadows_pure _ Bases.null
  · exact (shadows_members objects _).bind fun bases => shadows_pure _ (Bases.many bases)
  · exact (shadows_subschema objects _).bind fun base => shadows_pure _ (Bases.one base)

theorem shadows_node (parent above : Option NodeId) (fields : Entries Json) :
    Shadows (·.renumber (· + 1) above) (node x parent fields) (node y above fields) := by
  unfold node
  apply (shadows_optional (shadows_subschema objects)).bind
  intro additionalProperties
  apply (shadows_optional (shadows_subschema objects)).bind
  intro additionalItems
  apply (shadows_optional (shadows_members objects)).bind
  intro allOf
  apply (shadows_optional (shadows_members objects)).bind
  intro anyOf
  apply (shadows_optional (shadows_members objects)).bind
  intro oneOf
  apply (shadows_optional (shadows_entries objects)).bind
  intro properties
  apply (shadows_optional (shadows_entries objects)).bind
  intro patternProperties
  apply (shadows_optional (shadows_items objects)).bind
  intro items
  apply (shadows_optional (shadows_bases objects)).bind
  intro bases
  apply (shadows_optional (shadows_entries objects)).bind
  intro definitions
  apply (shadows_optional (shadows_entries objects)).bind
  intro defs
  have merged : mergeDefinitions (definitions.map (Entries.renumber (· + 1)))
      (defs.map (Entries.renumber (· + 1))) =
        (mergeDefinitions definitions defs).map (Entries.renumber (· + 1)) := by
    cases definitions <;> cases defs <;>
      simp [mergeDefinitions, Entries.renumber_merge]
  rw [merged]
  exact shadows_pure (fun n : Node => n.renumber (· + 1) above) _

end

theorem target?_congr (same : e.parts = d.parts) (fuel : Nat) (name : String) :
    e.target? fuel name = d.target? fuel name := by
  induction fuel generalizing name with
  | zero => rfl
  | succ fuel ih =>
    unfold Document.target?
    rw [same]
    simp only [ih]

/-- An object is ingested after a first node as it is without it, by a document with the same
parts. -/
theorem shadows_object (same : e.parts = d.parts) {fuel more : Nat} (enough : fuel ≤ more)
    (parent above : Option NodeId) (v : Json) :
    Shadows (· + 1) (object d fuel parent v) (object e more above v) := by
  induction fuel generalizing more parent above v with
  | zero => exact shadows_throw _ _
  | succ fuel ih =>
    obtain ⟨more, rfl⟩ : ∃ less, more = less + 1 := Nat.exists_eq_add_one.mpr (by omega)
    have objects (i : NodeId) (v : Json) : Shadows (· + 1) (object d fuel (some i) v)
        (object e more (some (i + 1)) v) := ih (Nat.le_of_succ_le_succ enough) _ _ v
    have made (name : Option String) (fields : Entries Json) : Shadows (· + 1)
        (do
          let i ← reserve parent name
          finish i (← node (object d fuel (some i)) parent fields)
          return i)
        (do
          let i ← reserve above name
          finish i (← node (object e more (some i)) above fields)
          return i) := by
      apply (shadows_reserve parent above name).bind
      intro i
      apply (shadows_node (objects i) parent above fields).bind
      intro n
      apply (shadows_finish i ⟨above, rfl⟩).bind
      exact fun _ => shadows_pure _ i
    unfold object
    split
    · rename_i name _
      rw [same, target?_congr same]
      cases d.target? (d.parts.length + 1) name with
      | none => exact shadows_throw _ _
      | some found =>
        apply shadows_get
        intro s t hosts
        have known : t.linked.lookup found.1 = (s.linked.lookup found.1).map (· + 1) := by
          rw [hosts.linked]
          exact lookup_map Function.injective_id (· + 1) _ _
        rw [known]
        cases s.linked.lookup found.1 with
        | some i => exact shadows_pure _ i
        | none => exact made (some found.1) found.2
    · exact made none _
    · exact shadows_throw _ _

end Ingestion
end LinkedSchema
