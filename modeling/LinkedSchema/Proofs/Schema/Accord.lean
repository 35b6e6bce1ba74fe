import LinkedSchema.Proofs.Lockstep
import LinkedSchema.Proofs.Schema.Faithful
import LinkedSchema.Proofs.Schema.Omissions
/-! The ingestion of documents that are the same but for some fields. The graphs have the same
edges, and their nodes differ in no more than what the objects differ in, or both documents are
refused. -/
namespace LinkedSchema

variable {o : Omission} {d e : Document} {N : Node → Node → Prop} {g h : Graph} {n m : Node}
  {s t : Intake} {x y : Entries Json} {v w : Json} {keyword : String} {i : NodeId}
  {parent : Option NodeId} {α β : Type}

namespace Graph

/-- A node of two graphs of one size, after a node was added to each of them. -/
theorem node_push_both (size : h.size = g.size) (n m : Node) (i : NodeId) :
    (g.push n).node i = g.node i ∧ (h.push m).node i = h.node i ∨
      (g.push n).node i = n ∧ (h.push m).node i = m := by
  rcases Nat.lt_trichotomy i g.size with old | rfl | beyond
  · exact .inl ⟨node_push_of_lt old n, node_push_of_lt (size ▸ old) m⟩
  · refine .inr ⟨node_push_self g n, ?_⟩
    rw [← size, node_push_self]
  · have outside : (g.push n).size ≤ i := by rwa [size_push]
    have outside' : (h.push m).size ≤ i := by rwa [size_push, size]
    rw [node_of_le outside, node_of_le outside', node_of_le (Nat.le_of_lt beyond),
      node_of_le (size ▸ Nat.le_of_lt beyond)]
    exact .inl ⟨rfl, rfl⟩

/-- A node of two graphs of one size, after a node of each of them was replaced. -/
theorem node_set_both (size : h.size = g.size) (n m : Node) (i j : NodeId) :
    (g.set i n).node j = g.node j ∧ (h.set i m).node j = h.node j ∨
      i = j ∧ (g.set i n).node j = n ∧ (h.set i m).node j = m := by
  by_cases here : i = j
  · subst here
    by_cases inside : i < g.size
    · exact .inr ⟨rfl, node_set_self inside n, node_set_self (size ▸ inside) m⟩
    · have beyond : g.size ≤ i := Nat.le_of_not_lt inside
      have outside : (g.set i n).size ≤ i := by rwa [size_set]
      have outside' : (h.set i m).size ≤ i := by rwa [size_set, size]
      rw [node_of_le outside, node_of_le outside', node_of_le beyond, node_of_le (size ▸ beyond)]
      exact .inl ⟨rfl, rfl⟩
  · exact .inl ⟨node_set_ne here n, node_set_ne here m⟩

end Graph

/-- Graphs of as many nodes, each related to the one of the other graph. -/
structure Graph.Kindred (N : Node → Node → Prop) (g h : Graph) : Prop where
  size : h.size = g.size
  node : ∀ i, N (g.node i) (h.node i)

namespace Graph.Kindred

theorem symm (equivalence : Equivalence N) (kindred : g.Kindred N h) : h.Kindred N g :=
  ⟨kindred.size.symm, fun i => equivalence.symm (kindred.node i)⟩

theorem trans (equivalence : Equivalence N) {k : Graph} (first : g.Kindred N h)
    (next : h.Kindred N k) : g.Kindred N k :=
  ⟨next.size.trans first.size, fun i => equivalence.trans (first.node i) (next.node i)⟩

theorem push (kindred : g.Kindred N h) (related : N n m) : (g.push n).Kindred N (h.push m) where
  size := by rw [size_push, size_push, kindred.size]
  node i := by
    rcases node_push_both kindred.size n m i with ⟨left, right⟩ | ⟨left, right⟩ <;>
      rw [left, right]
    · exact kindred.node i
    · exact related

theorem set (kindred : g.Kindred N h) (related : N n m) (i : NodeId) :
    (g.set i n).Kindred N (h.set i m) where
  size := by rw [size_set, size_set, kindred.size]
  node j := by
    rcases node_set_both kindred.size n m i j with ⟨left, right⟩ | ⟨_, left, right⟩ <;>
      rw [left, right]
    · exact kindred.node j
    · exact related

end Graph.Kindred

namespace Node

/-- The schemas in a node, and nothing else of it. -/
def bared (n : Node) : Node :=
  { additionalProperties := n.additionalProperties, additionalItems := n.additionalItems
    allOf := n.allOf, anyOf := n.anyOf, oneOf := n.oneOf, properties := n.properties
    patternProperties := n.patternProperties, items := n.items, bases := n.bases
    definitions := n.definitions }

/-- The node with all that an object says without schemas. -/
def filled (n : Node) (parent : Option NodeId) (fields : Entries Json) : Node :=
  let plain (keyword : String) : Json := (fields.lookup keyword).getD .null
  { n with
    type := plain "type"
    minItems := plain "minItems"
    maxItems := plain "maxItems"
    required := plain "required"
    enum := plain "enum"
    tsEnumNames := plain "tsEnumNames"
    tsType := plain "tsType"
    title := plain "title"
    id := plain "$id"
    legacyId := plain "id"
    description := plain "description"
    deprecated := plain "deprecated"
    ref := plain "$ref"
    const := fields.lookup "const"
    default := fields.lookup "default"
    parent }

/-- Objects that agree on all fields but for the bounds and the default fill a node with the same
but for these. -/
theorem filled_agree (n : Node) (parent : Option NodeId) (agree : ∀ name,
      schemaKeywords.lookup name = none → name ∉ ["minItems", "maxItems", "default"] →
        y.lookup name = x.lookup name) :
    n.filled parent y = { n.filled parent x with
      minItems := (y.lookup "minItems").getD .null
      maxItems := (y.lookup "maxItems").getD .null
      default := y.lookup "default" } := by
  unfold filled
  simp only [agree "type" rfl (by decide), agree "required" rfl (by decide),
    agree "enum" rfl (by decide), agree "tsEnumNames" rfl (by decide),
    agree "tsType" rfl (by decide), agree "title" rfl (by decide), agree "$id" rfl (by decide),
    agree "id" rfl (by decide), agree "description" rfl (by decide),
    agree "deprecated" rfl (by decide), agree "$ref" rfl (by decide),
    agree "const" rfl (by decide)]

end Node

/-- Intakes of kindred graphs, with the same parts met so far. -/
structure Intake.Kindred (N : Node → Node → Prop) (s t : Intake) : Prop where
  graph : s.graph.Kindred N t.graph
  linked : t.linked = s.linked

namespace Ingestion

/-- Both steps succeed with the same result, or both refuse, unless the first one goes too deep. -/
inductive Accords (N : Node → Node → Prop) :
    Except Refusal (α × Intake) → Except Refusal (α × Intake) → Prop where
  | ok {s t : Intake} (a : α) : s.Kindred N t → Accords N (.ok (a, s)) (.ok (a, t))
  | error (first second : Refusal) : first ≠ .depth → Accords N (.error first) (.error second)
  | depth (other : Except Refusal (α × Intake)) : Accords N (.error .depth) other

/-- The steps accord wherever they start from kindred intakes. -/
def Attuned (N : Node → Node → Prop) (x y : Ingestion α) : Prop :=
  ∀ s t, s.Kindred N t → Accords N (x.run s) (y.run t)

theorem attuned_throw (first second : Refusal) :
    Attuned N (throw first : Ingestion α) (throw second) := by
  intro s t _
  by_cases deep : first = .depth
  · subst deep
    exact .depth _
  · exact .error first second deep

theorem attuned_get {f k : Intake → Ingestion α}
    (rest : ∀ s t, s.Kindred N t → Attuned N (f s) (k t)) :
    Attuned N (get >>= f) (get >>= k) := fun s t kindred => rest s t kindred s t kindred

/-- What comes after a step needs to accord only for the results that the step may have. -/
theorem Attuned.bind_of {p q : Ingestion α} {f k : α → Ingestion β} (first : Attuned N p q)
    (rest : ∀ a, (∃ s t, p.run s = .ok (a, t)) → Attuned N (f a) (k a)) :
    Attuned N (p >>= f) (q >>= k) := by
  intro s t kindred
  rw [StateT.run_bind, StateT.run_bind]
  have accords := first s t kindred
  have onward (a : α) (s' : Intake) (ran : p.run s = .ok (a, s')) := rest a ⟨s, s', ran⟩
  generalize p.run s = u, q.run t = v at accords onward
  cases accords with
  | ok a kindred => exact onward a _ rfl _ _ kindred
  | error first second shallow => exact .error first second shallow
  | depth other => exact .depth _

theorem lockstep_attuned : Lockstep (fun γ => @Attuned γ N) where
  pure a _ _ kindred := .ok a kindred
  bind first rest := first.bind_of fun a _ => rest a

theorem Attuned.bind {p q : Ingestion α} {f k : α → Ingestion β} (first : Attuned N p q)
    (rest : ∀ a, Attuned N (f a) (k a)) : Attuned N (p >>= f) (q >>= k) :=
  lockstep_attuned.bind first rest

theorem Attuned.pure (a : α) : Attuned N (Pure.pure a : Ingestion α) (Pure.pure a) :=
  lockstep_attuned.pure a

theorem attuned_reserve (blank : N { parent } { parent }) (name : Option String) :
    Attuned N (reserve parent name) (reserve parent name) := by
  intro s t kindred
  have made : (reserve parent name).run t = .ok (t.graph.size,
    { graph := t.graph.push { parent }
      linked := (name.map (·, t.graph.size)).toList ++ t.linked }) := rfl
  rw [made, kindred.linked, kindred.graph.size]
  exact .ok s.graph.size ⟨kindred.graph.push blank, rfl⟩

theorem attuned_finish (i : NodeId) (related : N n m) :
    Attuned N (finish i n) (finish i m) :=
  fun _ _ kindred => .ok () ⟨kindred.graph.set related i, kindred.linked⟩

section Reading

variable {p q : Json → Ingestion NodeId}
  (objects : ∀ v w, o.value .single v = o.value .single w → Attuned N (p v) (q w))
include objects

theorem attuned_subschema {shape : Container} (other : shape ≠ .map)
    (same : o.value shape v = o.value shape w) :
    Attuned N (subschema p keyword v) (subschema q keyword w) := by
  rcases Omission.cases_of_value_eq same with ⟨x, y, rfl, rfl⟩ | ⟨vs, ws, rfl, rfl, _⟩ |
    ⟨rfl, noList, noObject⟩
  · rw [Omission.value_obj other, Omission.value_obj other] at same
    refine (objects _ _ ?_).bind fun i => .pure (Subschema.node i)
    rw [Omission.value_obj (by decide), Omission.value_obj (by decide), same]
  · exact attuned_throw _ _
  · cases v with
    | bool allowed => exact .pure (Subschema.bool allowed)
    | obj x => cases noObject
    | _ => exact attuned_throw _ _

theorem attuned_members {shape : Container} (same : o.value shape v = o.value shape w) :
    Attuned N (members p keyword v) (members q keyword w) := by
  rcases Omission.cases_of_value_eq same with ⟨x, y, rfl, rfl⟩ | ⟨vs, ws, rfl, rfl, each⟩ |
    ⟨rfl, noList, noObject⟩
  · exact attuned_throw _ _
  · exact lockstep_attuned.mapM_forall₂ (each.imp fun _ _ => attuned_subschema objects (by decide))
  · cases v with
    | arr vs => cases noList
    | _ => exact attuned_throw _ _

theorem attuned_entries (same : o.value .map v = o.value .map w) :
    Attuned N (entries p keyword v) (entries q keyword w) := by
  rcases Omission.cases_of_value_eq same with ⟨x, y, rfl, rfl⟩ | ⟨vs, ws, rfl, rfl, _⟩ |
    ⟨rfl, noList, noObject⟩
  · refine lockstep_attuned.mapM_forall₂ ((Omission.forall₂_of_map_eq same).imp ?_)
    rintro ⟨name, v⟩ ⟨_, w⟩ ⟨rfl, same⟩
    exact (attuned_subschema objects (by decide) same).bind fun s => .pure (name, s)
  · exact attuned_throw _ _
  · cases v with
    | obj x => cases noObject
    | _ => exact attuned_throw _ _

theorem attuned_items (same : o.value .items v = o.value .items w) :
    Attuned N (items p v) (items q w) := by
  have single : Attuned N (subschema p "items" v) (subschema q "items" w) :=
    attuned_subschema objects (by decide) same
  have several : Attuned N (members p "items" v) (members q "items" w) :=
    attuned_members objects same
  rcases Omission.cases_of_value_eq same with ⟨x, y, rfl, rfl⟩ | ⟨vs, ws, rfl, rfl, _⟩ |
    ⟨rfl, noList, noObject⟩
  · exact single.bind fun item => .pure (Items.each item)
  · exact several.bind fun items => .pure (Items.positions items)
  · cases v with
    | arr vs => cases noList
    | _ => exact single.bind fun item => .pure (Items.each item)

theorem attuned_bases (same : o.value .bases v = o.value .bases w) :
    Attuned N (bases p v) (bases q w) := by
  have single : Attuned N (subschema p "extends" v) (subschema q "extends" w) :=
    attuned_subschema objects (by decide) same
  have several : Attuned N (members p "extends" v) (members q "extends" w) :=
    attuned_members objects same
  rcases Omission.cases_of_value_eq same with ⟨x, y, rfl, rfl⟩ | ⟨vs, ws, rfl, rfl, _⟩ |
    ⟨rfl, noList, noObject⟩
  · exact single.bind fun base => .pure (Bases.one base)
  · exact several.bind fun bases => .pure (Bases.many bases)
  · cases v with
    | null => exact .pure Bases.null
    | arr vs => cases noList
    | _ => exact single.bind fun base => .pure (Bases.one base)

end Reading

theorem attuned_optional {read other : String → Json → Ingestion α} {shape : Container}
    (lookup : (x.lookup keyword).map (o.value shape) = (y.lookup keyword).map (o.value shape))
    (each : ∀ v w, o.value shape v = o.value shape w →
      Attuned N (read keyword v) (other keyword w)) :
    Attuned N (optional x keyword read) (optional y keyword other) := by
  unfold optional
  cases left : x.lookup keyword with
  | none =>
    rw [left, Option.map_none, eq_comm, Option.map_eq_none_iff] at lookup
    rw [lookup]
    exact .pure none
  | some v =>
    rw [left, Option.map_some, eq_comm, Option.map_eq_some_iff] at lookup
    obtain ⟨w, right, same⟩ := lookup
    rw [right]
    exact (each v w same.symm).bind fun a => .pure (some a)

/-- Objects of which the same is left have the same schemas. -/
theorem attuned_bared (lawful : o.Lawful) {p q : Json → Ingestion NodeId}
    (objects : ∀ v w, o.value .single v = o.value .single w → Attuned N (p v) (q w))
    (same : o.object x = o.object y) :
    Attuned N (Node.bared <$> node p parent x) (Node.bared <$> node q parent y) := by
  have lookup {keyword : String} {shape : Container}
      (listed : schemaKeywords.lookup keyword = some shape) :
      (x.lookup keyword).map (o.value shape) = (y.lookup keyword).map (o.value shape) := by
    have under : o.under keyword = o.value shape := by
      funext v
      rw [Omission.under, listed]
    rw [← under]
    refine (lawful.lookup_eq same keyword).resolve_right fun omitted => ?_
    rw [lawful.plain keyword omitted.1] at listed
    cases listed
  unfold node
  simp only [map_bind, map_pure]
  apply (attuned_optional (lookup rfl) fun _ _ => attuned_subschema objects (by decide)).bind
  intro additionalProperties
  apply (attuned_optional (lookup rfl) fun _ _ => attuned_subschema objects (by decide)).bind
  intro additionalItems
  apply (attuned_optional (lookup rfl) fun _ _ => attuned_members objects).bind
  intro allOf
  apply (attuned_optional (lookup rfl) fun _ _ => attuned_members objects).bind
  intro anyOf
  apply (attuned_optional (lookup rfl) fun _ _ => attuned_members objects).bind
  intro oneOf
  apply (attuned_optional (lookup rfl) fun _ _ => attuned_entries objects).bind
  intro properties
  apply (attuned_optional (lookup rfl) fun _ _ => attuned_entries objects).bind
  intro patternProperties
  apply (attuned_optional (lookup rfl) fun _ _ => attuned_items objects).bind
  intro items
  apply (attuned_optional (lookup rfl) fun _ _ => attuned_bases objects).bind
  intro bases
  apply (attuned_optional (lookup rfl) fun _ _ => attuned_entries objects).bind
  intro definitions
  apply (attuned_optional (lookup rfl) fun _ _ => attuned_entries objects).bind
  intro defs
  exact .pure _

theorem node_eq_filled (p : Json → Ingestion NodeId) (parent : Option NodeId) (x : Entries Json) :
    node p parent x = do return (← Node.bared <$> node p parent x).filled parent x := by
  unfold node
  simp only [map_bind, map_pure, bind_assoc, pure_bind]
  rfl

/-- All results of a step are of a kind. -/
def Yields (good : α → Prop) (p : Ingestion α) : Prop := ∀ s a t, p.run s = .ok (a, t) → good a

theorem Yields.bind {fine : α → Prop} {good : β → Prop} {p : Ingestion α} {f : α → Ingestion β}
    (first : Yields fine p) (rest : ∀ a, fine a → Yields good (f a)) : Yields good (p >>= f) := by
  intro s b t run
  rw [StateT.run_bind] at run
  obtain ⟨⟨a, s'⟩, half, run⟩ := bind_ok run
  exact rest a (first s a s' half) s' b t run

theorem yields_pure {good : α → Prop} {a : α} (holds : good a) :
    Yields good (pure a : Ingestion α) := by
  rintro s _ _ ⟨⟩
  exact holds

theorem yields_any (p : Ingestion α) : Yields (fun _ => True) p := fun _ _ _ _ => trivial

theorem yields_optional (keyword : String) (read : String → Json → Ingestion α) :
    Yields (fun found => found.isSome = (x.lookup keyword).isSome) (optional x keyword read) := by
  unfold optional
  cases x.lookup keyword with
  | none => exact yields_pure rfl
  | some v => exact (yields_any (read keyword v)).bind fun a _ => yields_pure rfl

/-- A node has items just if its object does. -/
theorem yields_items (p : Json → Ingestion NodeId) (parent : Option NodeId) (x : Entries Json) :
    Yields (fun n => n.items.isSome = (x.lookup "items").isSome)
      (Node.bared <$> node p parent x) := by
  unfold node
  simp only [map_bind, map_pure]
  iterate 7 refine (yields_any _).bind fun _ _ => ?_
  refine (yields_optional "items" fun _ => items p).bind fun items given => ?_
  iterate 3 refine (yields_any _).bind fun _ _ => ?_
  exact yields_pure given

/-- How the nodes of objects are related of which the same is left. -/
structure Fits (o : Omission) (N : Node → Node → Prop) : Prop where
  equivalence : Equivalence N
  node : ∀ (x y : Entries Json) (parent : Option NodeId) (n : Node), o.object x = o.object y →
    n.items.isSome = (x.lookup "items").isSome → N (n.filled parent x) (n.filled parent y)

section

variable (lawful : o.Lawful) (fits : Fits o N)
include lawful fits

/-- The node of an object is made in accord with that of another one of which the same is left. -/
theorem attuned_made {p q : NodeId → Json → Ingestion NodeId}
    (objects : ∀ i v w, o.value .single v = o.value .single w → Attuned N (p i v) (q i w))
    (same : o.object x = o.object y) (parent : Option NodeId) (name : Option String) :
    Attuned N
      (do
        let i ← reserve parent name
        finish i (← node (p i) parent x)
        return i)
      (do
        let i ← reserve parent name
        finish i (← node (q i) parent y)
        return i) := by
  apply (attuned_reserve (fits.equivalence.refl _) name).bind
  intro i
  rw [node_eq_filled, node_eq_filled (q i)]
  simp only [bind_assoc, pure_bind]
  apply (attuned_bared lawful (objects i) same).bind_of
  rintro n ⟨s, t, ran⟩
  have given := yields_items (p i) parent x s n t ran
  apply (attuned_finish i (fits.node x y parent n same given)).bind
  exact fun _ => .pure i

/-- Values of which the same is left are ingested in accord, given enough fuel. -/
theorem attuned_object (docs : o.document d = o.document e) {fuel more : Nat}
    (enough : fuel ≤ more) (parent : Option NodeId)
    (same : o.value .single v = o.value .single w) :
    Attuned N (object d fuel parent v) (object e more parent w) := by
  induction fuel generalizing more parent v w with
  | zero => exact fun _ _ _ => .depth _
  | succ fuel ih =>
    obtain ⟨more, rfl⟩ : ∃ less, more = less + 1 := Nat.exists_eq_add_one.mpr (by omega)
    have made {x y : Entries Json} (same : o.object x = o.object y) (name : Option String) :=
      attuned_made lawful fits (p := fun i => object d fuel (some i))
        (q := fun i => object e more (some i))
        (fun i v w => ih (Nat.le_of_succ_le_succ enough) (some i)) same parent name
    have link : w.link? = v.link? := by rw [← lawful.link_value, ← same, lawful.link_value]
    unfold object
    rw [link]
    cases v.link? with
    | some name =>
      have parts : d.parts.length = e.parts.length := by
        have lengths := congrArg (fun d => d.parts.length) docs
        simpa [Omission.document, Omission.entries_eq] using lengths
      have targets := lawful.target_document d (d.parts.length + 1) name
      rw [docs, lawful.target_document, parts] at targets
      dsimp only
      rw [parts]
      cases left : d.target? (e.parts.length + 1) name with
      | none =>
        rw [left, Option.map_none, Option.map_eq_none_iff] at targets
        rw [targets]
        exact attuned_throw _ _
      | some found =>
        rw [left, Option.map_some, Option.map_eq_some_iff] at targets
        obtain ⟨⟨part, y⟩, right, same⟩ := targets
        obtain ⟨rfl, same⟩ := Prod.mk.inj same
        rw [right]
        apply attuned_get
        intro s t kindred
        rw [kindred.linked]
        cases s.linked.lookup found.1 with
        | some i => exact .pure i
        | none => exact made same.symm (some found.1)
    | none =>
      rcases Omission.cases_of_value_eq same with ⟨x, y, rfl, rfl⟩ | ⟨vs, ws, rfl, rfl, _⟩ |
        ⟨rfl, noList, noObject⟩
      · rw [Omission.value_obj (by decide), Omission.value_obj (by decide)] at same
        exact made (Json.obj.inj same) none
      · exact attuned_throw _ _
      · cases v with
        | obj x => cases noObject
        | _ => exact attuned_throw _ _

end
end Ingestion

namespace Document

/-- Documents of which the same is left are ingested to kindred graphs, or both are refused. The
bounds on the depth may differ, so both graphs are compared to one that is made with more fuel. -/
theorem ingest_accord (lawful : o.Lawful) (fits : Ingestion.Fits o N)
    (same : o.document d = o.document e) :
    (∃ root g h, d.ingest .empty = .ok root g ∧ e.ingest .empty = .ok root h ∧
      g.Kindred N h) ∨
    ∃ first second, d.ingest .empty = .error first .empty ∧
      e.ingest .empty = .error second .empty := by
  have start : Intake.Kindred N ⟨.empty, []⟩ ⟨.empty, []⟩ :=
    ⟨⟨rfl, fun i => fits.equivalence.refl _⟩, rfl⟩
  have root : o.value .single d.root = o.value .single e.root := congrArg Document.root same
  have left := Ingestion.attuned_object lawful fits same
    (Nat.le_max_left (d.weight + 1) (e.weight + 1)) none root _ _ start
  have right := Ingestion.attuned_object lawful fits (d := e) (e := e) rfl
    (Nat.le_max_right (d.weight + 1) (e.weight + 1)) none (v := e.root) rfl _ _ start
  have shallow := d.ingest_ends .empty
  have shallow' := e.ingest_ends .empty
  unfold ingest at shallow shallow' ⊢
  generalize (Ingestion.object d (d.weight + 1) none d.root).run ⟨.empty, []⟩ = a,
    (Ingestion.object e (e.weight + 1) none e.root).run ⟨.empty, []⟩ = b,
    (Ingestion.object e (max (d.weight + 1) (e.weight + 1)) none e.root).run ⟨.empty, []⟩ = c
    at left right shallow shallow' ⊢
  cases left with
  | depth => exact absurd rfl shallow.1
  | @ok s _ i kindred =>
    cases right with
    | @ok t _ _ kindred' =>
      refine .inl ⟨i, s.graph, t.graph, rfl, rfl, ?_⟩
      exact kindred.graph.trans fits.equivalence (kindred'.graph.symm fits.equivalence)
    | depth => exact absurd rfl shallow'.1
  | error first _ _ =>
    cases right with
    | error second _ _ => exact .inr ⟨first, second, rfl, rfl⟩
    | depth => exact absurd rfl shallow'.1

end Document
end LinkedSchema
