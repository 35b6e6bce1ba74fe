import LinkedSchema.Proofs.Schema.Collection
/-! Keys of definitions. Maps of definitions override one another where they have a key in common,
so a node has a key below a root just if one of its declarations there is the last one of its
key. -/
namespace LinkedSchema

variable {g : Graph} {root i n : NodeId} {key : String} {s : Subschema} {found : Definitions}
  {order : List NodeId}

namespace Definitions

/-- The schema is the last one of that key. -/
def Prevails (found : Definitions) (key : String) (s : Subschema) : Prop :=
  ∃ before after, found = before ++ (key, s) :: after ∧ key ∉ Entries.names after

theorem prevails_iff : found.Prevails key s ↔ found.reverse.lookup key = some s := by
  rw [List.lookup_eq_some_iff]
  constructor
  · rintro ⟨before, after, rfl, last⟩
    refine ⟨after.reverse, before.reverse, by simp, fun e listed => ?_⟩
    have other : e.1 ≠ key := by
      rintro rfl
      exact last (List.mem_map_of_mem (List.mem_reverse.mp listed))
    simpa using Ne.symm other
  · rintro ⟨after, before, same, last⟩
    refine ⟨before.reverse, after.reverse, ?_, fun again => ?_⟩
    · rw [← List.reverse_reverse found, same]
      simp
    · obtain ⟨e, listed, rfl⟩ := List.mem_map.mp again
      have other := last e (List.mem_reverse.mp listed)
      simp at other

theorem Prevails.mem (prevails : found.Prevails key s) : (key, s) ∈ found := by
  obtain ⟨before, after, rfl, _⟩ := prevails
  simp

/-- A key that stands for one schema only is never overridden. -/
theorem prevails_of_mem (agree : ∀ t, (key, t) ∈ found → t = s) (listed : (key, s) ∈ found) :
    found.Prevails key s := by
  rw [prevails_iff]
  cases last : found.reverse.lookup key with
  | none => exact absurd rfl (ne_of_lookup last _ (List.mem_reverse.mpr listed))
  | some t => rw [agree t (List.mem_reverse.mp (mem_of_lookup last))]

theorem node?_eq_some_iff : s.node? = some n ↔ s = .node n := by
  cases s <;> simp [Subschema.node?]

theorem mem_of_keyOf (here : found.keyOf n = some key) : (key, .node n) ∈ found := by
  obtain ⟨⟨name, s⟩, first, rfl⟩ := Option.map_eq_some_iff.mp here
  have same : s = .node n := by simpa [node?_eq_some_iff] using List.find?_some first
  exact same ▸ List.mem_of_find?_eq_some first

theorem keyOf_eq_none_iff : found.keyOf n = none ↔ ∀ key, (key, .node n) ∉ found := by
  rw [keyOf, Option.map_eq_none_iff, List.find?_eq_none]
  constructor
  · intro absent key listed
    exact absent _ listed (by simp [Subschema.node?])
  · rintro absent ⟨key, s⟩ listed same
    have same : s = .node n := by simpa [node?_eq_some_iff] using same
    exact absent key (same ▸ listed)

/-- What is left when definitions are merged into one map are those that prevail. -/
theorem mem_merge_iff : (key, s) ∈ Entries.merge [] found ↔ found.Prevails key s := by
  have once : (Entries.merge [] found).names.Nodup := Entries.nodup_merge List.nodup_nil
  have values : (Entries.merge [] found).lookup key =
      (found.reverse.lookup key).or (([] : Definitions).lookup key) := Entries.lookup_merge
  rw [List.lookup_nil, Option.or_none] at values
  rw [prevails_iff, ← values]
  exact ⟨lookup_eq_of_mem once, mem_of_lookup⟩

end Definitions

namespace Graph

/-- Some node below the root has the schema among its definitions under that key. -/
def Declares (g : Graph) (root : NodeId) (key : String) (s : Subschema) : Prop :=
  ∃ i, g.Below root i ∧ (key, s) ∈ (g.node i).definitions.getD []

theorem mem_declared_iff (searched : ∀ i, i ∈ order ↔ g.Below root i) :
    (key, s) ∈ g.declared order ↔ g.Declares root key s := by
  simp only [declared, List.mem_flatMap, Declares, searched]

/-- The key that is found for a node is one that it is declared under below the root. One is found
just if some declaration of the node prevails, so wherever no key is declared as two schemas every
declared node has one. -/
theorem keyFor_prevails (closed : g.Closed) (once : ∀ i < g.size, (g.node i).NamesOnce)
    (inside : root < g.size) : ∃ order, DepthFirst g.collectedFrom id [] [root] order ∧
      (∀ i, i ∈ order ↔ g.Below root i) ∧ ∀ n : NodeId,
        (∀ key, (DefinitionsCache.keyFor [] g n (some root)).1 = some key →
          g.Declares root key (.node n) ∧ (g.declared order).Prevails key (.node n)) ∧
        ((DefinitionsCache.keyFor [] g n (some root)).1 = none ↔
          ∀ key, g.Declares root key (.node n) →
            ¬ (g.declared order).Prevails key (.node n)) ∧
        ((∀ key s t, g.Declares root key s → g.Declares root key t → s = t) →
          ((DefinitionsCache.keyFor [] g n (some root)).1 = none ↔
            ∀ key, ¬ g.Declares root key (.node n))) := by
  obtain ⟨order, search, reached, found⟩ := collectBelow_root closed once inside
  have searched (i : NodeId) : i ∈ order ↔ g.Below root i :=
    (reached i).trans (below_iff inside).symm
  refine ⟨order, search, searched, fun n => ?_⟩
  have result : (DefinitionsCache.keyFor [] g n (some root)).1 =
      Definitions.keyOf (Entries.merge [] (g.declared order)) n := by
    show (g.definitions root).keyOf n = _
    rw [definitions, found]
  have declares {key : String} {s : Subschema} (prevails : (g.declared order).Prevails key s) :
      g.Declares root key s := (mem_declared_iff searched).mp prevails.mem
  have none_iff : (DefinitionsCache.keyFor [] g n (some root)).1 = none ↔
      ∀ key, ¬ (g.declared order).Prevails key (.node n) := by
    rw [result, Definitions.keyOf_eq_none_iff]
    exact forall_congr' fun key => not_congr Definitions.mem_merge_iff
  refine ⟨fun key here => ?_, ?_, fun agree => ?_⟩
  · have prevails := Definitions.mem_merge_iff.mp (Definitions.mem_of_keyOf (result ▸ here))
    exact ⟨declares prevails, prevails⟩
  · rw [none_iff]
    exact ⟨fun lost key _ => lost key, fun lost key prevails => lost key (declares prevails) prevails⟩
  · rw [none_iff]
    refine forall_congr' fun key => not_congr ⟨declares, fun declared => ?_⟩
    refine Definitions.prevails_of_mem (fun t listed => ?_) ((mem_declared_iff searched).mpr declared)
    exact agree key t (.node n) ((mem_declared_iff searched).mp listed) declared

/-- On the roundabout, a definition is overridden, and the node that overrides it has the key. -/
theorem keyFor_roundabout : roundabout.Closed ∧
    (∀ i < roundabout.size, (roundabout.node i).NamesOnce) ∧ 0 < roundabout.size ∧
    (DefinitionsCache.keyFor [] roundabout 3 (some 0)).1 = some "Same" ∧
      roundabout.Declares 0 "Same" (.node 3) := by
  have closed : roundabout.Closed := by decide
  have once : ∀ i < roundabout.size, (roundabout.node i).NamesOnce := by decide
  have inside : 0 < roundabout.size := by decide
  have found : (DefinitionsCache.keyFor [] roundabout 3 (some 0)).1 = some "Same" := rfl
  obtain ⟨_, _, _, keys⟩ := keyFor_prevails closed once inside
  exact ⟨closed, once, inside, found, ((keys 3).1 _ found).1⟩

/-- Two nodes are declared under one key, one of them by the root. -/
def eclipsed : Graph := ⟨#[
  { definitions := some [("A", .node 1)], items := some (.each (.node 2)) },
  { title := .str "outer", parent := some 0 },
  { definitions := some [("A", .node 3)], parent := some 0 },
  { title := .str "inner", parent := some 2 }]⟩

/-- The definition of the root is overridden by the one below it, and has no key. -/
theorem keyFor_eclipsed : eclipsed.Declares 0 "A" (.node 1) ∧
    (DefinitionsCache.keyFor [] eclipsed 1 (some 0)).1 = none := by
  refine ⟨⟨0, ⟨by decide, .refl⟩, ?_⟩, rfl⟩
  exact List.mem_cons_self

end Graph
end LinkedSchema
