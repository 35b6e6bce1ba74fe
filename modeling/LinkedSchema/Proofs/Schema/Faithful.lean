import LinkedSchema.Proofs.Results
import LinkedSchema.Proofs.Schema.Ingestion
/-! Ingestion as a whole. A document is accepted just if it is well formed, and then it is depicted
by the new nodes: there is one for each object, and the edges and parents are those that a
depth-first search of the document comes across. -/
namespace LinkedSchema

variable {d : Document} {g later : Graph} {base : Nat} {met : List Meeting} {p : Place}
  {fields : Entries Json} {keyword : String} {v : Json} {holds : Slot → Subschema → Prop}

/-- A value with the container that a keyword calls for, and something in each slot. -/
def Filled (holds : Slot → Subschema → Prop) (keyword : String) (shape : Container) (v : Json) :
    Prop :=
  shape.Fits v ∧ ∀ slot ∈ shape.slots keyword v, ∃ s, holds slot s

theorem ReadsSingle.filled {s : Subschema} (h : ReadsSingle holds keyword v s) :
    Filled holds keyword .single v :=
  ⟨trivial, fun _ listed => ⟨s, List.mem_singleton.mp listed ▸ h⟩⟩

theorem ReadsList.filled {members : List Subschema} (h : ReadsList holds keyword v members) :
    Filled holds keyword .list v := by
  cases v with
  | arr values =>
    refine ⟨rfl, fun slot listed => ?_⟩
    obtain ⟨k, hk, rfl⟩ := List.getElem_of_mem listed
    exact ⟨_, h.get hk (h.length_eq ▸ hk)⟩
  | _ => cases h

theorem ReadsMap.filled {entries : Entries Subschema} (h : ReadsMap holds keyword v entries) :
    Filled holds keyword .map v := by
  cases v with
  | obj values =>
    refine ⟨rfl, fun slot listed => ?_⟩
    obtain ⟨k, hk, rfl⟩ := List.getElem_of_mem listed
    exact ⟨_, h.2.get hk (h.2.length_eq ▸ hk)⟩
  | _ => cases h

theorem ReadsItems.filled {items : Items} (h : ReadsItems holds keyword v items) :
    Filled holds keyword .items v := by
  cases items with
  | each s =>
    obtain ⟨single, h⟩ := h
    refine ⟨trivial, fun slot listed => ⟨s, ?_⟩⟩
    cases v with
    | arr => cases single
    | _ => exact List.mem_singleton.mp listed ▸ h
  | positions members =>
    refine ⟨trivial, ?_⟩
    cases v with
    | arr values => exact (ReadsList.filled (v := .arr values) h).2
    | _ => cases h

theorem ReadsBases.filled {bases : Bases} (h : ReadsBases holds keyword v bases) :
    Filled holds keyword .bases v := by
  cases bases with
  | null =>
    cases h
    exact ⟨trivial, nofun⟩
  | one s =>
    obtain ⟨single, given, h⟩ := h
    refine ⟨trivial, fun slot listed => ⟨s, ?_⟩⟩
    cases v with
    | arr => cases single
    | null => exact absurd rfl given
    | _ => exact List.mem_singleton.mp listed ▸ h
  | many members =>
    refine ⟨trivial, ?_⟩
    cases v with
    | arr values => exact (ReadsList.filled (v := .arr values) h).2
    | _ => cases h

/-- The way up leads to the first one of a list if all others have parents earlier in the list. -/
theorem Graph.ancestor_of_parents {count : Nat} (top : (later.node base).parent = none)
    (parents : ∀ k, k + 1 < count → ∃ j ≤ k, (later.node (base + (k + 1))).parent = some (base + j))
    (fuel : Nat) : ∀ k < count, k ≤ fuel → later.ancestor fuel (base + k) = base := by
  induction fuel with
  | zero =>
    intro k _ least
    rw [Nat.le_zero.mp least]
    rfl
  | succ fuel ih =>
    intro k inside least
    rw [Graph.ancestor]
    cases k with
    | zero => rw [Nat.add_zero, top]
    | succ k =>
      obtain ⟨j, le, parent⟩ := parents k inside
      rw [parent]
      exact ih j (by omega) (by omega)

/-- The number of a node is told by the place of its object. -/
theorem Made.index {i : NodeId} (once : (targets met).Nodup) (h : Made base met i p) {j : Nat}
    {u : Meeting} (found : met[j]? = some u) (here : u.target = p) : i = base + j := by
  obtain ⟨k, m, at_, rfl, there⟩ := h
  have inside := (List.getElem?_eq_some_iff.mp at_).1
  have same : (targets met)[k]? = (targets met)[j]? := by
    rw [targets, List.getElem?_map, List.getElem?_map, at_, found, Option.map_some,
      Option.map_some, there, here]
  rw [(List.getElem?_inj (by rwa [targets, List.length_map]) once).mp same]

namespace Document

variable {made : NodeId → Place → Prop} {n : Node}

theorem Reads.filled {α : Type} {rel : (Slot → Subschema → Prop) → String → Json → α → Prop}
    {x : Option α} {shape : Container} (h : d.Reads made p fields keyword rel x)
    (each : ∀ v a, rel (d.Holds made p fields) keyword v a →
      Filled (d.Holds made p fields) keyword shape v)
    (found : fields.lookup keyword = some v) : Filled (d.Holds made p fields) keyword shape v := by
  unfold Reads at h
  rw [found] at h
  cases h with
  | some reads => exact each _ _ reads

theorem Mirrors.filled (h : d.Mirrors made p fields n) {e : String × Container}
    (called : e ∈ schemaKeywords) (found : fields.lookup e.1 = some v) :
    Filled (d.Holds made p fields) e.1 e.2 v := by
  obtain ⟨older, newer, reads, reads', _⟩ := h.definitions
  simp only [schemaKeywords, List.mem_cons, List.not_mem_nil, or_false] at called
  rcases called with rfl | rfl | rfl | rfl | rfl | rfl | rfl | rfl | rfl | rfl | rfl
  · exact h.additionalProperties.filled (fun _ _ => ReadsSingle.filled) found
  · exact h.additionalItems.filled (fun _ _ => ReadsSingle.filled) found
  · exact h.allOf.filled (fun _ _ => ReadsList.filled) found
  · exact h.anyOf.filled (fun _ _ => ReadsList.filled) found
  · exact h.oneOf.filled (fun _ _ => ReadsList.filled) found
  · exact h.properties.filled (fun _ _ => ReadsMap.filled) found
  · exact h.patternProperties.filled (fun _ _ => ReadsMap.filled) found
  · exact h.items.filled (fun _ _ => ReadsItems.filled) found
  · exact h.bases.filled (fun _ _ => ReadsBases.filled) found
  · exact reads.filled (fun _ _ => ReadsMap.filled) found
  · exact reads'.filled (fun _ _ => ReadsMap.filled) found

theorem Holds.isSchema {slot : Slot} {s : Subschema} (here : d.fieldsAt p = some fields)
    (h : d.Holds made p fields slot s) (found : slot.value? fields = some v) :
    d.IsSchema (p.inner slot) v := by
  cases s with
  | bool b =>
    cases found.symm.trans h
    exact .inl rfl
  | node i =>
    obtain ⟨q, leads, _⟩ := h
    simp only [leads?, here, Option.bind_some, found] at leads
    exact .inr (Option.isSome_iff_exists.mpr ⟨q, leads⟩)
  | bare => cases h

/-- Only a sound object can be mirrored. -/
theorem Mirrors.sound (h : d.Mirrors made p fields n) (here : d.fieldsAt p = some fields) :
    d.Sound p := by
  intro _ again
  cases here.symm.trans again
  refine ⟨fun e called v found => (h.filled called found).1, fun slot listed v there => ?_⟩
  obtain ⟨e, called, under⟩ := List.mem_flatMap.mp listed
  unfold slotsUnder at under
  split at under
  · rename_i w found
    obtain ⟨s, holds⟩ := (h.filled called found).2 slot under
    exact holds.isSchema here there
  · cases under

theorem leads_iff {q : Place} : d.Leads p q ↔ DepthFirst.Step d.meetings Meeting.target p q := by
  constructor
  · rintro ⟨slot, listed, leads⟩
    refine ⟨⟨some p, q⟩, List.mem_filterMap.mpr ⟨slot, listed, ?_⟩, rfl⟩
    rw [leads]
    rfl
  · rintro ⟨m, hm, rfl⟩
    obtain ⟨slot, listed, leads⟩ := List.mem_filterMap.mp hm
    obtain ⟨q, next, rfl⟩ := Option.map_eq_some_iff.mp leads
    exact ⟨slot, listed, next⟩

theorem source_of_mem {m : Meeting} (h : m ∈ d.meetings p) : m.source = some p := by
  obtain ⟨slot, _, leads⟩ := List.mem_filterMap.mp h
  obtain ⟨q, _, rfl⟩ := Option.map_eq_some_iff.mp leads
  rfl

/-- The nodes that were added to a graph depict a document. For each object that is met on a
depth-first search there is one, and its number tells when. -/
structure Depicted (d : Document) (g later : Graph) (root : NodeId) (start : Place)
    (met : List Meeting) : Prop where
  first : root = g.size
  size : later.size = g.size + met.length
  kept : ∀ i < g.size, later.node i = g.node i
  search : DepthFirst d.meetings Meeting.target [] [⟨none, start⟩] met
  once : (targets met).Nodup
  reached : ∀ p, p ∈ targets met ↔ d.Reaches start p
  mirrors : ∀ (k : Nat) m, met[k]? = some m → ∃ fields, d.fieldsAt m.target = some fields ∧
    d.Mirrors (Made g.size met) m.target fields (later.node (g.size + k))
  top : (later.node root).parent = none
  parents : ∀ k m, met[k + 1]? = some m → ∃ j ≤ k, ∃ u, met[j]? = some u ∧
    m ∈ d.meetings u.target ∧ (later.node (g.size + (k + 1))).parent = some (g.size + j)
  ways : ∀ k < met.length, later.documentRoot (g.size + k) = root

theorem Depicted.lt_size {root i : NodeId} {start : Place}
    (depicted : d.Depicted g later root start met) (made : Made g.size met i p) :
    i < later.size := by
  obtain ⟨k, m, found, rfl, _⟩ := made
  rw [depicted.size]
  exact Nat.add_lt_add_left (List.getElem?_eq_some_iff.mp found).1 _

theorem depicted_of_progress {start : Place} {s : Intake}
    (progress : d.Progress g.size [⟨none, start⟩] [⟨none, []⟩] [] ⟨g, []⟩ met s) :
    d.Depicted g s.graph g.size start met := by
  have search : DepthFirst d.meetings Meeting.target [] [⟨none, start⟩] met := progress.search
  have once : (targets met).Nodup := search.nodup
  have finished (k : Nat) (m : Meeting) (found : met[k]? = some m) :
      d.Finished g.size met m (s.graph.node (g.size + k)) := progress.finished k m found
  have size : s.graph.size = g.size + met.length := progress.knows.size
  have head : met[0]? = some ⟨none, start⟩ := search.head
  have top : (s.graph.node g.size).parent = none := (finished 0 _ head).parent
  have parents (k : Nat) (m : Meeting) (found : met[k + 1]? = some m) :
      ∃ j ≤ k, ∃ u, met[j]? = some u ∧ m ∈ d.meetings u.target ∧
        (s.graph.node (g.size + (k + 1))).parent = some (g.size + j) := by
    obtain ⟨inside, here⟩ := List.getElem?_eq_some_iff.mp found
    have split : met = met.take (k + 1) ++ m :: met.drop (k + 1 + 1) := by
      rw [← here, List.getElem_cons_drop, List.take_append_drop]
    obtain ⟨u, earlier, leads⟩ : ∃ u ∈ met.take (k + 1), m ∈ d.meetings u.target := by
      refine (search.sourced _ _ _ split).resolve_left fun start => ?_
      -- the first object is not met again
      cases List.mem_singleton.mp start
      have again : Made g.size met (g.size + (k + 1)) _ := ⟨k + 1, _, found, rfl, rfl⟩
      exact absurd (Nat.add_left_cancel (again.index once head rfl)) (Nat.succ_ne_zero k)
    obtain ⟨j, hj, rfl⟩ := List.getElem_of_mem earlier
    rw [List.length_take] at hj
    have at_ : met[j]? = some (met.take (k + 1))[j] := by
      rw [List.getElem_take]
      exact List.getElem?_eq_getElem (by omega)
    have isParent := (finished (k + 1) m found).parent
    rw [source_of_mem leads] at isParent
    obtain ⟨i, parent, made⟩ := isParent
    rw [made.index once at_ rfl] at parent
    exact ⟨j, by omega, _, at_, leads, parent⟩
  refine ⟨rfl, size, progress.kept, search, once, fun p => ?_, ?_, top, parents, ?_⟩
  · have same : d.Leads = DepthFirst.Step d.meetings Meeting.target :=
      funext fun p => funext fun q => propext leads_iff
    rw [Reaches, same]
    exact search.found_iff
  · intro k m found
    exact (finished k m found).mirrors
  · intro k inside
    refine Graph.ancestor_of_parents top (fun k inside => ?_) s.graph.size k inside (by omega)
    obtain ⟨j, le, u, _, _, parent⟩ := parents k _ (List.getElem?_eq_getElem inside)
    exact ⟨j, le, parent⟩

/-- The end of an ingestion: the document is depicted, or something that it leads to is unsound. -/
theorem ingest_ends (d : Document) (g : Graph) :
    match d.ingest g with
    | .ok root later => ∃ start met, d.start? = some start ∧ d.Depicted g later root start met
    | .error e _ => e ≠ .depth ∧ ∀ start, d.start? = some start → d.Broken start := by
  have knows : Intake.Knows g.size [] ⟨g, []⟩ := ⟨rfl, nofun, fun _ _ => nofun, nofun⟩
  have next : IsNext [] ⟨none, []⟩ := ⟨nofun, .inl rfl⟩
  have enough : d.root.weight + d.unread [] ≤ d.weight + 1 := by
    rw [unread_nil, weight]
    exact Nat.le_succ _
  have ends := ingests_object d g.size (d.weight + 1) none none ⟨none, []⟩ d.root ⟨g, []⟩ []
    knows rfl next (fun entries _ same => by simp [fieldsAt, textFields, same]) enough
  unfold Ingestion.Ends at ends
  unfold ingest
  split at ends
  · rename_i root s run
    obtain ⟨start, met, stands, made, progress⟩ := ends
    rw [run]
    have depicted := depicted_of_progress progress
    refine ⟨start, met, stands, ?_⟩
    rw [made.index depicted.once depicted.search.head rfl]
    exact depicted
  · rename_i e run
    rw [run]
    exact ends

/-- Ingestion never gives up, accepts the well-formed documents and no others, and depicts them. -/
theorem ingest_faithful (d : Document) (g : Graph) :
    (∀ later, d.ingest g ≠ .error .depth later) ∧
    ((∃ root later, d.ingest g = .ok root later) ↔ d.WellFormed) ∧
    ∀ root later, d.ingest g = .ok root later →
      ∃ start met, d.start? = some start ∧ d.Depicted g later root start met := by
  have ends := d.ingest_ends g
  cases run : d.ingest g with
  | ok root later =>
    rw [run] at ends
    refine ⟨nofun, ⟨fun _ => ?_, fun _ => ⟨root, later, rfl⟩⟩, ?_⟩
    · obtain ⟨start, met, starts, depicted⟩ := ends
      refine ⟨start, starts, fun q reached => ?_⟩
      obtain ⟨m, hm, rfl⟩ := List.mem_map.mp ((depicted.reached q).mpr reached)
      obtain ⟨k, found⟩ := List.mem_iff_getElem?.mp hm
      obtain ⟨fields, here, mirrors⟩ := depicted.mirrors k m found
      exact mirrors.sound here
    · rintro _ _ ⟨⟩
      exact ends
  | error e later =>
    rw [run] at ends
    refine ⟨?_, ⟨nofun, ?_⟩, nofun⟩
    · rintro _ ⟨⟩
      exact ends.1 rfl
    · rintro ⟨start, starts, sound⟩
      obtain ⟨q, reached, unsound⟩ := ends.2 start starts
      exact absurd (sound q reached) unsound

/-- A document with a part that is met twice and leads back to itself. -/
def spiral : Document where
  root := .obj [("title", .str "root"), ("anyOf", .arr [.bool true, .obj [("$link", .str "part")]]),
    ("properties", .obj [("next", .obj [("$link", .str "alias")])])]
  parts := [("alias", .obj [("$link", .str "part")]),
    ("part", .obj [("items", .obj [("additionalItems", .obj [("$link", .str "alias")])]),
      ("extends", .null)])]

theorem ingest_spiral : spiral.WellFormed ∧ ∃ root later start met,
    spiral.ingest .empty = .ok root later ∧ spiral.Depicted .empty later root start met ∧
      met.length = 3 := by
  obtain ⟨_, accepted, depicted⟩ := ingest_faithful spiral .empty
  obtain ⟨root, later, run, count⟩ := exists_of_endsIn
    (show endsIn (fun _ later => later.size == 3) (spiral.ingest .empty) = true by decide +kernel)
  obtain ⟨start, met, _, whole⟩ := depicted root later run
  refine ⟨accepted.mp ⟨root, later, run⟩, root, later, start, met, run, whole, ?_⟩
  have size := whole.size
  rw [eq_of_beq count] at size
  exact (Nat.zero_add _ ▸ size).symm

end Document
end LinkedSchema
