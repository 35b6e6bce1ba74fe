import LinkedSchema.Proofs.Build.CommentEnds
/-! Documents in which types, descriptions and bounds are of the types that they are declared with,
and what this comes to in the graphs that are made of them. -/
namespace LinkedSchema

variable {d : Document} {g : Graph} {root i : NodeId} {p : Place} {fields : Entries Json}
  {made : NodeId → Place → Prop} {n : Node}

/-- A type that is a name or a list of names, a description that is a text and bounds that are
integers, as far as they are given. -/
structure TypedFields (fields : Entries Json) : Prop extends DescribedFields fields where
  type : ∀ v, fields.lookup "type" = some v → v.NamesTypes

instance (fields : Entries Json) : Decidable (TypedFields fields) :=
  decidable_of_iff
    (DescribedFields fields ∧ ∀ v ∈ fields.lookup "type", v.NamesTypes)
    ⟨fun h => ⟨h.1, h.2⟩, fun h => ⟨h.toDescribedFields, h.type⟩⟩

namespace Document

/-- All objects that the document leads to have typed fields. -/
def Typed (d : Document) : Prop :=
  ∀ start p fields, d.start? = some start → d.Reaches start p → d.fieldsAt p = some fields →
    TypedFields fields

theorem Mirrors.typed (mirrors : d.Mirrors made p fields n) (typed : TypedFields fields) :
    n.Typed := by
  obtain ⟨description, minItems, maxItems⟩ := mirrors.described typed.toDescribedFields
  refine ⟨?_, description, minItems, maxItems⟩
  have same : n.type = (fields.lookup "type").getD .null :=
    mirrors.plain ("type", n.type) (by simp [Node.plainKeywords])
  rw [same]
  cases found : fields.lookup "type" with
  | none => trivial
  | some v => exact typed.type v found

/-- What an ingested node is made of: the object at a place that the document leads to. -/
theorem exists_object_of_ingest (accepted : d.ingest .empty = .ok root g) (inside : i < g.size) :
    ∃ start met p fields, d.start? = some start ∧ d.Depicted .empty g root start met ∧
      Made 0 met i p ∧ d.Reaches start p ∧ d.fieldsAt p = some fields ∧
      d.Mirrors (Made 0 met) p fields (g.node i) := by
  have ends := d.ingest_ends .empty
  rw [accepted] at ends
  obtain ⟨start, met, starts, depicted⟩ := ends
  have size : g.size = met.length := depicted.size.trans (Nat.zero_add _)
  have listed : i < met.length := size ▸ inside
  obtain ⟨m, found⟩ : ∃ m, met[i]? = some m := ⟨_, List.getElem?_eq_getElem listed⟩
  obtain ⟨fields, here, mirrors⟩ := depicted.mirrors i m found
  have count : Graph.empty.size + i = i := Nat.zero_add i
  rw [count] at mirrors
  have there : d.Reaches start m.target :=
    (depicted.reached _).mp (List.mem_map_of_mem (List.mem_of_getElem? found))
  exact ⟨start, met, m.target, fields, starts, depicted, ⟨i, m, found, (Nat.zero_add i).symm, rfl⟩,
    there, here, mirrors⟩

/-- The nodes of a typed document are typed. -/
theorem Typed.of_ingest (typed : d.Typed) (accepted : d.ingest .empty = .ok root g)
    (inside : i < g.size) : (g.node i).Typed := by
  obtain ⟨start, _, p, fields, starts, _, _, there, here, mirrors⟩ :=
    exists_object_of_ingest accepted inside
  exact mirrors.typed (typed start p fields starts there here)

end Document
end LinkedSchema
