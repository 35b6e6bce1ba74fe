import LinkedSchema.Proofs.Normalize.Whole
import LinkedSchema.Proofs.Schema.Faithful
import LinkedSchema.Proofs.Schema.Links
/-! What the nodes of an ingested document have from its objects: their children stand in slots, and
their texts and keys are those of the objects. -/
namespace LinkedSchema

variable {d : Document} {g later : Graph} {root i : NodeId} {p start : Place}
  {fields : Entries Json} {keyword : String} {holds : Slot → Subschema → Prop} {s : Subschema}
  {v : Json} {n : Node}

theorem ReadsSingle.held {t : Subschema} (reads : ReadsSingle holds keyword v t)
    (member : s ∈ [t]) : ∃ slot, holds slot s := ⟨_, List.mem_singleton.mp member ▸ reads⟩

theorem ReadsList.held {members : List Subschema} (reads : ReadsList holds keyword v members)
    (member : s ∈ members) : ∃ slot, holds slot s := by
  cases v with
  | arr values =>
    obtain ⟨k, hk, rfl⟩ := List.getElem_of_mem member
    exact ⟨_, List.Forall₂.get reads (reads.length_eq ▸ hk) hk⟩
  | _ => cases reads

theorem ReadsMap.held {entries : Entries Subschema} (reads : ReadsMap holds keyword v entries)
    (member : s ∈ entries.map (·.2)) : ∃ slot, holds slot s := by
  cases v with
  | obj values =>
    obtain ⟨k, hk, rfl⟩ := List.getElem_of_mem member
    exact ⟨_, reads.2.get (reads.2.length_eq ▸ hk) hk⟩
  | _ => cases reads

theorem ReadsItems.held {items : Items} (reads : ReadsItems holds keyword v items)
    (member : s ∈ items.toList) : ∃ slot, holds slot s := by
  cases items with
  | each item => exact ⟨_, List.mem_singleton.mp member ▸ reads.2⟩
  | positions members => exact ReadsList.held reads member

theorem ReadsBases.held {bases : Bases} (reads : ReadsBases holds keyword v bases)
    (member : s ∈ bases.toList) : ∃ slot, holds slot s := by
  cases bases with
  | null => cases member
  | one base => exact ⟨_, List.mem_singleton.mp member ▸ reads.2.2⟩
  | many members => exact ReadsList.held reads member

/-- A merged map has entries of the two maps only. -/
theorem MergesTo.mem {older newer merged : Option (Entries Subschema)}
    (merges : MergesTo older newer merged) {e : String × Subschema} (listed : e ∈ merged.getD []) :
    e ∈ older.getD [] ∨ e ∈ newer.getD [] := by
  cases older with
  | none => exact .inr (merges ▸ listed)
  | some older =>
    cases newer with
    | none =>
      cases merges
      exact .inl listed
    | some newer =>
      cases merged with
      | none => cases listed
      | some merged => exact (merges.1 e listed).symm

namespace Document

variable {made : NodeId → Place → Prop}

theorem Reads.of_some {α : Type} {rel : (Slot → Subschema → Prop) → String → Json → α → Prop}
    {x : Option α} {a : α} (reads : d.Reads made p fields keyword rel x) (found : x = some a) :
    ∃ v, fields.lookup keyword = some v ∧ rel (d.Holds made p fields) keyword v a := by
  unfold Reads at reads
  rw [found] at reads
  cases looked : fields.lookup keyword with
  | none => rw [looked] at reads; cases reads
  | some v =>
    rw [looked] at reads
    cases reads with
    | some reads => exact ⟨v, rfl, reads⟩

/-- What is read of a keyword stands in slots, schema by schema. -/
theorem Reads.held {α : Type} {rel : (Slot → Subschema → Prop) → String → Json → α → Prop}
    {x : Option α} {list : α → List Subschema} (reads : d.Reads made p fields keyword rel x)
    (each : ∀ v a, rel (d.Holds made p fields) keyword v a → ∀ s ∈ list a,
      ∃ slot, d.Holds made p fields slot s)
    (member : ∃ a ∈ x, s ∈ list a) : ∃ slot, d.Holds made p fields slot s := by
  obtain ⟨a, found, member⟩ := member
  obtain ⟨v, _, reads⟩ := reads.of_some found
  exact each v a reads s member

/-- Every child of a node stands in a slot of its object. -/
theorem Mirrors.held (mirrors : d.Mirrors made p fields n) (child : s ∈ n.children) :
    ∃ slot, d.Holds made p fields slot s := by
  have several {x : Option (List Subschema)} (member : s ∈ x.getD []) : ∃ a ∈ x, s ∈ a := by
    cases x with
    | none => cases member
    | some a => exact ⟨a, rfl, member⟩
  have entries {x : Option (Entries Subschema)} (member : s ∈ (x.getD []).map (·.2)) :
      ∃ a ∈ x, s ∈ a.map (·.2) := by
    cases x with
    | none => cases member
    | some a => exact ⟨a, rfl, member⟩
  have mapped {α : Type} {f : α → List Subschema} {x : Option α} (member : s ∈ (x.map f).getD []) :
      ∃ a ∈ x, s ∈ f a := by
    cases x with
    | none => cases member
    | some a => exact ⟨a, rfl, member⟩
  have single {x : Option Subschema} (member : s ∈ x.toList) : ∃ a ∈ x, s ∈ [a] :=
    ⟨s, Option.mem_toList.mp member, List.mem_singleton_self s⟩
  simp only [Node.children, List.mem_append] at child
  rcases child with (((((((((h | h) | h) | h) | h) | h) | h) | h) | h) | h)
  · exact mirrors.properties.held (fun _ _ reads _ => reads.held) (entries h)
  · exact mirrors.patternProperties.held (fun _ _ reads _ => reads.held) (entries h)
  · obtain ⟨older, newer, reads, reads', merges⟩ := mirrors.definitions
    obtain ⟨e, listed, rfl⟩ := List.mem_map.mp h
    rcases merges.mem listed with old | new
    · exact reads.held (fun _ _ reads _ => reads.held) (entries (List.mem_map_of_mem old))
    · exact reads'.held (fun _ _ reads _ => reads.held) (entries (List.mem_map_of_mem new))
  · exact mirrors.allOf.held (fun _ _ reads _ => reads.held) (several h)
  · exact mirrors.anyOf.held (fun _ _ reads _ => reads.held) (several h)
  · exact mirrors.oneOf.held (fun _ _ reads _ => reads.held) (several h)
  · exact mirrors.items.held (fun _ _ reads _ => reads.held) (mapped h)
  · exact mirrors.bases.held (fun _ _ reads _ => reads.held) (mapped h)
  · exact mirrors.additionalProperties.held (fun _ _ reads _ => reads.held) (single h)
  · exact mirrors.additionalItems.held (fun _ _ reads _ => reads.held) (single h)

/-- A definition of a node is named by a key of a map of definitions of its object. -/
theorem Mirrors.defines (mirrors : d.Mirrors made p fields n) {e : String × Subschema}
    (listed : e ∈ n.definitions.getD []) : ∃ keyword ∈ ["definitions", "$defs"], ∃ entries,
      fields.lookup keyword = some (.obj entries) ∧ e.1 ∈ Entries.names entries := by
  have one {keyword : String} {x : Option (Entries Subschema)}
      (reads : d.Reads made p fields keyword ReadsMap x) (listed : e ∈ x.getD []) :
      ∃ entries, fields.lookup keyword = some (.obj entries) ∧ e.1 ∈ Entries.names entries := by
    cases found : x with
    | none => rw [found] at listed; cases listed
    | some members =>
      rw [found] at listed
      obtain ⟨v, there, reads⟩ := reads.of_some found
      cases v with
      | obj entries => exact ⟨entries, there, reads.1 ▸ List.mem_map_of_mem listed⟩
      | _ => cases reads
  obtain ⟨older, newer, reads, reads', merges⟩ := mirrors.definitions
  rcases merges.mem listed with old | new
  · exact ⟨_, by simp, one reads old⟩
  · exact ⟨_, by simp, one reads' new⟩

/-- All that the root leads to was made of objects that the document leads to. -/
theorem Depicted.made_of_reaches {met : List Meeting} (depicted : d.Depicted g later root start met)
    (reaches : later.Reaches root i) : ∃ p, Made g.size met i p := by
  induction reaches with
  | refl => exact ⟨start, 0, _, depicted.search.head, depicted.first, rfl⟩
  | tail _ edge ih =>
    obtain ⟨_, k, m, found, rfl, _⟩ := ih
    obtain ⟨fields, _, mirrors⟩ := depicted.mirrors k m found
    obtain ⟨slot, q, _, made⟩ := mirrors.held (Node.leadsTo_iff.mp edge)
    exact ⟨q, made⟩

end Document
end LinkedSchema
