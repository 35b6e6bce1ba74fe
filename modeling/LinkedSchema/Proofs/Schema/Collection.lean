import LinkedSchema.Proofs.Merging
import LinkedSchema.Proofs.Schema.Definitions
import LinkedSchema.Proofs.Schema.Links
import LinkedSchema.Proofs.Schema.Steady
/-! What the collection of definitions comes to: the maps of all nodes below the root, merged in
the order of a depth-first search of its own. -/
namespace LinkedSchema

/-- The edges of a node in the order in which definitions are collected. -/
def Link.collected : List Link :=
  [.properties, .patternProperties, .definitions, .allOf, .anyOf, .oneOf, .items, .bases,
    .additionalProperties, .additionalItems]

/-- No map of definitions has a name twice. -/
def Node.NamesOnce (n : Node) : Prop := (Entries.names (n.definitions.getD [])).Nodup

instance (n : Node) : Decidable n.NamesOnce :=
  inferInstanceAs (Decidable (Entries.names (n.definitions.getD [])).Nodup)

namespace Graph

/-- The nodes that the collection goes on to from a node. -/
def collectedFrom (g : Graph) (i : NodeId) : List NodeId :=
  Link.collected.flatMap fun link => (((g.node i).under link).filterMap g.edge?).map Visit.node

/-- All definitions of some nodes, one after the other. -/
def declared (g : Graph) (order : List NodeId) : Definitions :=
  order.flatMap fun i => (g.node i).definitions.getD []

variable {g : Graph} {root i j : NodeId} {fuel : Nat} {seen : List NodeId}

/-- The node of the graph that a schema is. -/
def inside? (g : Graph) (s : Subschema) : Option NodeId := (g.edge? (none, s)).map Visit.node

theorem inside?_node (inside : j < g.size) : g.inside? (.node j) = some j := by
  simp [inside?, edge?, inside]

theorem map_edge?_unnamed (members : Option (List Subschema)) :
    ((Node.unnamed? members).filterMap g.edge?).map Visit.node =
      (members.getD []).filterMap g.inside? := by
  rw [List.map_filterMap, Node.unnamed?, List.filterMap_map]
  rfl

theorem map_edge?_named (entries : Option (Entries Subschema)) :
    ((Node.named? entries).filterMap g.edge?).map Visit.node =
      ((entries.getD []).map (·.2)).filterMap g.inside? := by
  rw [List.map_filterMap, Node.named?, List.filterMap_map, List.filterMap_map]
  congr 1
  funext e
  obtain ⟨name, s⟩ := e
  cases s with
  | node j => by_cases inside : j < g.size <;> simp [inside?, edge?, inside]
  | _ => rfl

/-- Children of a node are collected from in the order of the keywords that they stand under. -/
theorem collectedFrom_eq (g : Graph) (i : NodeId) :
    g.collectedFrom i = (g.node i).children.filterMap g.inside? := by
  have single (s : Option Subschema) : (s.map ([·])).getD [] = s.toList := by cases s <;> rfl
  simp only [Node.children, List.filterMap_append, ← map_edge?_named, ← map_edge?_unnamed,
    ← single, collectedFrom, Link.collected, List.flatMap_cons, List.flatMap_nil, List.append_nil,
    List.append_assoc]
  rfl

/-- Going through children is a search from all of them, if going through one is a search. -/
theorem collectAll_search {below : List NodeId → Subschema → Definitions × List NodeId}
    {children : List Subschema}
    (searches : ∀ s ∈ children, ∀ seen, (g.unseen seen).length ≤ fuel →
      ∃ order, DepthFirst g.collectedFrom id seen (g.inside? s).toList order ∧
        below seen s = (Entries.merge [] (g.declared order), order.reverse ++ seen))
    {found : Definitions} (once : found.names.Nodup) (few : (g.unseen seen).length ≤ fuel) :
    ∃ order, DepthFirst g.collectedFrom id seen (children.filterMap g.inside?) order ∧
      collectAll below children (found, seen) =
        (found.merge (g.declared order), order.reverse ++ seen) := by
  induction children generalizing found seen with
  | nil => exact ⟨[], .done, rfl⟩
  | cons s rest ih =>
    obtain ⟨first, search, made⟩ := searches s List.mem_cons_self seen few
    have fewer : (g.unseen (first.reverse ++ seen)).length ≤ fuel :=
      Nat.le_trans (g.unseen_subset (List.subset_append_right _ _)) few
    obtain ⟨after, onward, merged⟩ := ih (fun s h => searches s (List.mem_cons_of_mem _ h))
      (Entries.nodup_merge once) fewer
    refine ⟨first ++ after, ?_, ?_⟩
    · have whole := search.append onward
      cases here : g.inside? s <;> simpa [here] using whole
    · have step : collectAll below (s :: rest) (found, seen) =
          collectAll below rest (found.merge (below seen s).1, (below seen s).2) := rfl
      rw [step, made, Entries.merge_merged once, merged, ← Entries.merge_append]
      simp [declared]

/-- Collection is a depth-first search that merges the definitions of all that it finds. -/
theorem collectBelow_search (closed : g.Closed) (once : ∀ i < g.size, (g.node i).NamesOnce) :
    ∀ (fuel : Nat) (seen : List NodeId) (s : Subschema), s.Below g.size →
      (g.unseen seen).length ≤ fuel →
      ∃ order, DepthFirst g.collectedFrom id seen (g.inside? s).toList order ∧
        g.collectBelow fuel seen s =
          (Entries.merge [] (g.declared order), order.reverse ++ seen) := by
  intro fuel
  induction fuel with
  | zero =>
    intro seen s below few
    cases s with
    | node i =>
      rw [inside?_node below]
      have known : i ∈ seen := by
        by_contra new
        have fewer := unseen_cons_lt below new
        omega
      exact ⟨[], .known (by simpa using known) .done, rfl⟩
    | _ => exact ⟨[], .done, rfl⟩
  | succ fuel ih =>
    intro seen s below few
    cases s with
    | node i =>
      rw [inside?_node below, collectBelow_node]
      by_cases known : i ∈ seen
      · rw [if_pos (by simpa using known)]
        exact ⟨[], .known (by simpa using known) .done, rfl⟩
      · rw [if_neg (by simpa using known)]
        have fewer : (g.unseen (i :: seen)).length ≤ fuel :=
          Nat.le_of_lt_succ (Nat.lt_of_lt_of_le (unseen_cons_lt below known) few)
        obtain ⟨order, search, merged⟩ := collectAll_search
          (fun s h seen few => ih seen s (closed i below s h) few) (once i below) fewer
        rw [← collectedFrom_eq] at search
        refine ⟨i :: order, ?_, ?_⟩
        · have whole := DepthFirst.enter (by simpa using known) search .done
          simpa using whole
        · have start : g.declared (i :: order) =
              (g.node i).definitions.getD [] ++ g.declared order := List.flatMap_cons
          rw [merged, start, Entries.merge_append, Entries.merge_nil (once i below)]
          simp
    | _ => exact ⟨[], .done, rfl⟩

/-- Walks and collection follow the same edges, in different orders. -/
theorem mem_collectedFrom : j ∈ g.collectedFrom i ↔ g.Edge i j := by
  have everywhere : ∀ link : Link, link ∈ Link.collected ∧ link ∈ Link.all := by
    intro link
    cases link <;> simp [Link.collected, Link.all]
  constructor
  · intro h
    obtain ⟨link, _, h⟩ := List.mem_flatMap.mp h
    obtain ⟨v, hv, here⟩ := List.mem_map.mp h
    exact ⟨v, List.mem_flatMap.mpr ⟨link, (everywhere link).2, hv⟩, here⟩
  · rintro ⟨v, hv, here⟩
    obtain ⟨link, _, hv⟩ := List.mem_flatMap.mp hv
    exact List.mem_flatMap.mpr ⟨link, (everywhere link).1, List.mem_map.mpr ⟨v, hv, here⟩⟩

/-- A walk that changes nothing visits what the root leads to. -/
theorem met_visits_iff (inside : root < g.size) :
    Met (g.visits root) i ↔ Relation.ReflTransGen g.Edge root i := by
  rw [met_visits]
  exact below_iff inside

/-- What the collection of definitions below a root is to be. -/
structure Collected (g : Graph) (root : NodeId) (order : List NodeId) : Prop where
  preorder : DepthFirst g.collectedFrom id [] [root] order
  visited : ∀ i, i ∈ order ↔ Met (g.visits root) i
  once : order.Nodup
  /-- More fuel than there are nodes changes nothing, neither what is found nor what is seen. -/
  ends : ∀ fuel, g.size ≤ fuel →
    g.collectBelow fuel [] (.node root) = (g.definitions root, order.reverse)
  names : (g.definitions root).names = (g.declared order).names.eraseDups
  values : ∀ name, (g.definitions root).lookup name = (g.declared order).reverse.lookup name

/-- Collection below a root is a search for all that the root leads to. -/
theorem collectBelow_root (closed : g.Closed) (once : ∀ i < g.size, (g.node i).NamesOnce)
    (inside : root < g.size) : ∃ order, DepthFirst g.collectedFrom id [] [root] order ∧
      (∀ i, i ∈ order ↔ Relation.ReflTransGen g.Edge root i) ∧
      g.collectBelow g.size [] (.node root) =
        (Entries.merge [] (g.declared order), order.reverse) := by
  have few : (g.unseen []).length ≤ g.size := by
    simp [unseen]
  obtain ⟨order, search, found⟩ := collectBelow_search closed once g.size [] (.node root) inside few
  rw [inside?_node inside] at search
  rw [List.append_nil] at found
  refine ⟨order, search, fun i => ?_, found⟩
  have reached := search.found_iff (x := i)
  rw [List.map_id] at reached
  have same : DepthFirst.Step g.collectedFrom id = g.Edge := by
    funext i j
    simp [DepthFirst.Step, mem_collectedFrom]
  rw [reached, same]
  rfl

/-- The collection merges the definitions of just those nodes that a walk visits, in the order of
a search of its own: names stand where they first come up, with the values that come up last. -/
theorem definitions_collected (closed : g.Closed) (once : ∀ i < g.size, (g.node i).NamesOnce)
    (inside : root < g.size) : ∃ order, g.Collected root order := by
  obtain ⟨order, search, reached, found⟩ := collectBelow_root closed once inside
  have few : (g.unseen []).length ≤ g.size := by
    simp [unseen]
  have result : g.definitions root = Entries.merge [] (g.declared order) := by
    rw [definitions, found]
  have alone : (Entries.names ([] : Definitions)).Nodup := List.nodup_nil
  refine ⟨order, ?_⟩
  constructor
  case preorder => exact search
  case visited =>
    intro i
    rw [reached, met_visits_iff inside]
  case once =>
    have once := search.nodup
    rwa [List.map_id] at once
  case ends =>
    intro fuel enough
    rw [← collectBelow_enough closed g.size fuel [] (.node root) inside few enough, found, result]
  case names =>
    rw [result, Entries.names_merge alone]
    rfl
  case values =>
    intro name
    rw [result, Entries.lookup_merge]
    simp

/-- A graph with a cycle, two names that come up twice and a node that is reached in two ways. -/
def roundabout : Graph := ⟨#[
  { properties := some [("next", .node 1)],
    definitions := some [("Same", .node 2), ("Other", .node 3)] },
  { definitions := some [("Same", .node 3), ("Fresh", .node 0)], items := some (.each (.node 0)) },
  { definitions := some [("Deep", .bool true), ("Other", .node 1)] },
  {}]⟩

theorem definitions_roundabout : roundabout.Closed ∧
    (∀ i < roundabout.size, (roundabout.node i).NamesOnce) ∧ 0 < roundabout.size ∧
      roundabout.Collected 0 [0, 1, 3, 2] := by
  have closed : roundabout.Closed := by decide
  have once : ∀ i < roundabout.size, (roundabout.node i).NamesOnce := by decide
  have inside : 0 < roundabout.size := by decide
  obtain ⟨order, collected⟩ := definitions_collected closed once inside
  have seen : order.reverse = [2, 3, 1, 0] := by
    have ends := congrArg Prod.snd (collected.ends roundabout.size (Nat.le_refl _))
    exact ends.symm.trans (by decide)
  have listed : order = [0, 1, 3, 2] := by
    rw [← List.reverse_reverse order, seen]
    rfl
  exact ⟨closed, once, inside, listed ▸ collected⟩

example : roundabout.definitions 0 =
    [("Same", .node 3), ("Other", .node 1), ("Fresh", .node 0), ("Deep", .bool true)] := rfl

end Graph
end LinkedSchema
