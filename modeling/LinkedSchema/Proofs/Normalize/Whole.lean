import LinkedSchema.Proofs.Normalize.Normal
/-! What a pass of the rules makes of the texts of a node that end up in comments: its description
ends none, and its definitions are the same as before. -/
namespace LinkedSchema

variable {n m : Node} {options : Options}

/-- Texts and bounds of the types that they are declared with. -/
structure Node.Described (n : Node) : Prop where
  description : n.description = .null ∨ n.description.isText
  minItems : n.minItems.IsBound
  maxItems : n.maxItems.IsBound

/-- A node with the definitions of another one and a description that ends no comment. -/
structure Node.Retells (m n : Node) : Prop where
  description : m.description = .null ∨ m.description.isText
  whole : Rule.HasWholeDescription m
  definitions : m.definitions = n.definitions

namespace Rule

/-- The bounds are documented after the description is escaped, with lines that end no comment; no
later rule writes a description, and no rule a definition. -/
theorem pass_retells (described : n.Described) (made : pass all options n = .ok m) :
    m.Retells n := by
  obtain ⟨identified, documented, bounded, expanded, move, document, drop, expand, rfl⟩ :=
    pass_all_ok made
  obtain ⟨type, required, additional, id, legacyId, rfl, _⟩ := identified_spec move
  obtain ⟨escaped, escape, filled, whole⟩ := escapeDescription_spec
    (n := { n with type, required, additionalProperties := additional, id, legacyId })
    described.description
  rw [escape] at document
  obtain ⟨description, rfl, filled, whole, _⟩ := documentBounds_spec
    (n := { n with
      type, required, additionalProperties := additional, id, legacyId, description := escaped })
    filled described.minItems described.maxItems whole document
  obtain ⟨lower, upper, rfl, _⟩ := bounded_spec
    (n := { n with
      type, required, additionalProperties := additional, id, legacyId, description })
    described.minItems described.maxItems drop
  obtain ⟨items, additionalItems, rfl, _⟩ := expandItems_spec expand
  obtain ⟨bases, enum, close, _⟩ := closing_spec
    { n with
      type, required, additionalProperties := additional, id, legacyId, description
      minItems := lower, maxItems := upper, items, additionalItems }
  rw [close]
  exact ⟨filled, whole, rfl⟩

end Rule
end LinkedSchema
