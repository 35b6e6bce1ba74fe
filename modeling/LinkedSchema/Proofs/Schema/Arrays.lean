import LinkedSchema.Proofs.Schema.Hosting
/-! Documents of arrays, with a schema for all of their items or with none, between two bounds. The
nodes of the schema of the items come after the one of the array, as they are by themselves. -/
namespace LinkedSchema

variable {items : Option Json} {lower upper : Option Int} {parts : Entries Json} {v : Json}
  {g : Graph} {r : NodeId} {keyword : String}

/-- A bound as a document gives it, or leaves it out. -/
def Json.bound (k : Option Int) : Json := k.elim .null .int

namespace Document

def arrayFields (items : Option Json) (lower upper : Option Int) : Entries Json :=
  ("type", .str "array") :: ((items.map ("items", ·)).toList ++
    (lower.map fun k => ("minItems", .int k)).toList ++
    (upper.map fun k => ("maxItems", .int k)).toList)

/-- The document of an array: what its items are, and how many of them there are. -/
def array (items : Option Json) (lower upper : Option Int) (parts : Entries Json) : Document where
  root := .obj (arrayFields items lower upper)
  parts

theorem lookup_arrayFields (other : keyword ∉ ["type", "items", "minItems", "maxItems"]) :
    (arrayFields items lower upper).lookup keyword = none := by
  simp only [List.mem_cons, List.not_mem_nil, or_false, not_or] at other
  obtain ⟨type, item, least, most⟩ := other
  rw [List.lookup_eq_none_iff]
  cases items <;> cases lower <;> cases upper <;> simp [arrayFields, type, item, least, most]

theorem lookup_items : (arrayFields items lower upper).lookup "items" = items := by
  cases items <;> cases lower <;> cases upper <;> rfl

theorem lookup_minItems :
    ((arrayFields items lower upper).lookup "minItems").getD .null = .bound lower := by
  cases items <;> cases lower <;> cases upper <;> rfl

theorem lookup_maxItems :
    ((arrayFields items lower upper).lookup "maxItems").getD .null = .bound upper := by
  cases items <;> cases lower <;> cases upper <;> rfl

theorem weight_array (v : Json) : v.weight + Json.entriesWeight parts <
    (array (some v) lower upper parts).weight := by
  cases lower <;> cases upper <;>
    simp only [weight, array, arrayFields, Json.weight, Json.entriesWeight, Option.map_some,
      Option.map_none, Option.toList_some, Option.toList_none, List.append_nil, List.cons_append,
      List.nil_append] <;> omega

end Document

/-- An array that says nothing else, but may be described. -/
def Node.array (item : Option Subschema) (lower upper description : Json) : Node :=
  { type := .str "array", minItems := lower, maxItems := upper, description
    items := item.map .each }

namespace Ingestion

open Document (arrayFields lookup_arrayFields lookup_items lookup_minItems lookup_maxItems)

theorem node_untyped (object : Json → Ingestion NodeId) :
    node object none (arrayFields none lower upper) =
      pure (.array none (.bound lower) (.bound upper) .null) := by
  unfold node
  simp (disch := decide) only [optional, lookup_arrayFields, lookup_items, lookup_minItems,
    lookup_maxItems, pure_bind]
  rfl

theorem node_typed (object : Json → Ingestion NodeId) {s : Subschema} {t t' : Intake}
    (plain : v.isArr = false) (read : subschema object "items" v t = .ok (s, t')) :
    node object none (arrayFields (some v) lower upper) t =
      .ok (.array (some s) (.bound lower) (.bound upper) .null, t') := by
  have single : items object v = do return .each (← subschema object "items" v) := by
    cases v <;> first | rfl | cases plain
  unfold node
  simp (disch := decide) only [optional, lookup_arrayFields, lookup_items, lookup_minItems,
    lookup_maxItems, pure_bind, single, bind_assoc]
  show Except.bind (subschema object "items" v t) _ = _
  rw [read]
  rfl

end Ingestion

namespace Document

/-- The node of the array comes first, and is filled once its items are read. -/
theorem ingest_array {n : Node} {t : Intake}
    (made : Ingestion.node (Ingestion.object (array items lower upper parts)
      (array items lower upper parts).weight (some 0)) none (arrayFields items lower upper)
      ⟨.push .empty {}, []⟩ = .ok (n, t)) :
    (array items lower upper parts).ingest .empty = .ok 0 (t.graph.set 0 n) := by
  generalize same : array items lower upper parts = e at made
  have root : e.root = .obj (arrayFields items lower upper) := by
    rw [← same]
    rfl
  have noLink : (Json.obj (arrayFields items lower upper)).link? = none := rfl
  have run : (Ingestion.object e (e.weight + 1) none (.obj (arrayFields items lower upper))).run
      ⟨.empty, []⟩ = Except.ok (0, { t with graph := t.graph.set 0 n }) := by
    rw [Ingestion.object.eq_def]
    simp only [noLink]
    show Except.bind (Ingestion.node (Ingestion.object e e.weight (some 0)) none _
      ⟨.push .empty {}, []⟩) _ = _
    rw [made]
    rfl
  rw [ingest, root, run]

theorem ingest_untyped : (array none lower upper parts).ingest .empty =
    .ok 0 (.push .empty (.array none (.bound lower) (.bound upper) .null)) :=
  ingest_array (congrFun (Ingestion.node_untyped _) _)

theorem ingest_boolean (allowed : Bool) :
    (array (some (.bool allowed)) lower upper parts).ingest .empty =
      .ok 0 (.push .empty (.array (some (.bool allowed)) (.bound lower) (.bound upper) .null)) := by
  have read (object : Json → Ingestion NodeId) (s : Intake) :
      Ingestion.subschema object "items" (.bool allowed) s = .ok (.bool allowed, s) := rfl
  exact ingest_array (Ingestion.node_typed _ rfl (read _ _))

/-- A schema that is accepted by itself is accepted for the items. -/
theorem ingest_hosts {fields : Entries Json}
    (accepted : (⟨.obj fields, parts⟩ : Document).ingest .empty = .ok r g) :
    ∃ h, (array (some (.obj fields)) lower upper parts).ingest .empty = .ok 0 h ∧ h.Hosts g ∧
      h.node 0 = .array (some (.node (r + 1))) (.bound lower) (.bound upper) .null := by
  generalize made : (⟨.obj fields, parts⟩ : Document) = d at accepted
  unfold ingest at accepted
  cases run : (Ingestion.object d (d.weight + 1) none d.root).run ⟨.empty, []⟩ with
  | error e =>
    rw [run] at accepted
    cases accepted
  | ok found =>
    rw [run] at accepted
    cases accepted
    have same : (array (some (.obj fields)) lower upper parts).parts = d.parts := by
      rw [← made]
      rfl
    have enough : d.weight + 1 ≤ (array (some (.obj fields)) lower upper parts).weight := by
      rw [← made]
      exact weight_array (.obj fields)
    obtain ⟨t, here, hosts⟩ := Ingestion.shadows_object same enough none (some 0) d.root
      ⟨.empty, []⟩ ⟨.push .empty {}, []⟩ _ _ ⟨.alone {}, rfl⟩ run
    have root : d.root = .obj fields := by rw [← made]
    rw [root] at here
    have read : Ingestion.subschema (Ingestion.object (array (some (.obj fields)) lower upper parts)
        (array (some (.obj fields)) lower upper parts).weight (some 0)) "items" (.obj fields)
        ⟨.push .empty {}, []⟩ = .ok (.node (found.1 + 1), t) := by
      replace here : Ingestion.object _ _ _ _ _ = _ := here
      show Except.bind _ _ = _
      rw [here]
      rfl
    refine ⟨_, ingest_array (Ingestion.node_typed _ rfl read), hosts.graph.set_first _, ?_⟩
    exact Graph.node_set_self hosts.graph.inside _

end Document
end LinkedSchema
