import LinkedSchema.Proofs.Normalize.Rules
/-! No rule adds an edge, and only the one that makes tuples takes any away. -/
namespace LinkedSchema

variable {n m : Node} {i : NodeId}

namespace Visit

theorem mem_ofMembers {members : Option (List Subschema)} {v : Visit} :
    v ∈ ofMembers members ↔ ∃ s ∈ members.getD [], ofMember? s = some v := by
  simp [ofMembers]

theorem mem_ofSingle {s : Option Subschema} {v : Visit} :
    v ∈ ofSingle s ↔ ∃ t ∈ s, ofMember? t = some v := by
  simp [ofSingle, Option.bind_eq_some_iff]

end Visit

namespace Node

theorem LeadsTo.of_eq (same : m.successors = n.successors) (leads : m.LeadsTo i) :
    n.LeadsTo i := by
  unfold LeadsTo at leads ⊢
  rwa [← same]

end Node

namespace Rule

theorem successors_dropNullType : (dropNullType n).successors = n.successors := by
  unfold dropNullType
  split
  · split <;> rfl
  · rfl

theorem successors_unwrapSingleType : (unwrapSingleType n).successors = n.successors := by
  unfold unwrapSingleType
  split <;> rfl

theorem successors_defaultRequired : (defaultRequired n).successors = n.successors := by
  unfold defaultRequired
  split <;> rfl

theorem successors_listRequired : (listRequired n).successors = n.successors := by
  unfold listRequired
  split <;> rfl

theorem successors_defaultAdditionalProperties :
    (defaultAdditionalProperties n).successors = n.successors := by
  obtain ⟨additional, made, _, same⟩ := defaultAdditionalProperties_spec n
  rw [made]
  simp only [Node.successors, same]

theorem successors_moveLegacyId (made : moveLegacyId n = .ok m) :
    m.successors = n.successors := by
  obtain ⟨id, legacyId, rfl, _⟩ := moveLegacyId_spec made
  rfl

theorem successors_escapeDescription : (escapeDescription n).successors = n.successors := by
  obtain ⟨description, made⟩ := escapeDescription_writes n
  rw [made]
  rfl

theorem successors_documentBounds (made : documentBounds n = .ok m) :
    m.successors = n.successors := by
  obtain ⟨description, rfl⟩ := documentBounds_writes made
  rfl

theorem successors_stripBounds {options : Options} :
    (stripBounds options n).successors = n.successors := by
  unfold stripBounds
  split <;> rfl

theorem successors_defaultMinItems : (defaultMinItems n).successors = n.successors := by
  unfold defaultMinItems
  split <;> rfl

theorem successors_dropWideMaxItems {options : Options}
    (made : dropWideMaxItems options n = .ok m) : m.successors = n.successors := by
  obtain ⟨maxItems, rfl⟩ := dropWideMaxItems_writes made
  rfl

theorem mem_successors_of_items {v : Visit} (h : v ∈ Visit.ofMembers (n.items.map Items.toList)) :
    v ∈ n.successors := by
  simp only [Node.successors, List.mem_append, h, true_or, or_true]

theorem mem_successors_of_additionalItems {v : Visit} (h : v ∈ Visit.ofSingle n.additionalItems) :
    v ∈ n.successors := by
  simp only [Node.successors, List.mem_append, h, true_or, or_true]

theorem mem_successors_tuple {items : Option Items} {additionalItems : Option Subschema} {v : Visit}
    (h : v ∈ Node.successors { n with items, additionalItems }) :
    v ∈ Visit.ofMembers (items.map Items.toList) ∨ v ∈ Visit.ofSingle additionalItems ∨
      v ∈ n.successors := by
  simp only [Node.successors, List.mem_append] at h ⊢
  rcases h with (((((((((h | h) | h) | h) | h) | h) | h) | h) | h) | h) <;>
    simp only [h, true_or, or_true]

/-- A tuple leads where its array led, or to fewer places. -/
theorem leadsTo_of_expandItems (made : expandItems n = .ok m) (leads : m.LeadsTo i) :
    n.LeadsTo i := by
  obtain ⟨items, additionalItems, rfl, _, _, among, further⟩ := expandItems_spec made
  obtain ⟨v, hv, here⟩ := leads
  refine ⟨v, ?_, here⟩
  have element : ∀ s ∈ (n.items.map Items.toList).getD [], Visit.ofMember? s = some v →
      v ∈ n.successors := fun s hs same =>
    mem_successors_of_items (Visit.mem_ofMembers.mpr ⟨s, hs, same⟩)
  rcases mem_successors_tuple hv with inItems | inAdditional | other
  · obtain ⟨s, hs, same⟩ := Visit.mem_ofMembers.mp inItems
    exact element s (among s hs) same
  · obtain ⟨s, hs, same⟩ := Visit.mem_ofSingle.mp inAdditional
    rcases further s hs with old | item
    · exact mem_successors_of_additionalItems (Visit.mem_ofSingle.mpr ⟨s, old, same⟩)
    · exact element s item same
  · exact other

theorem successors_dropEmptyBases : (dropEmptyBases n).successors = n.successors := by
  obtain ⟨bases, made, _, _, same⟩ := dropEmptyBases_spec n
  rw [made]
  simp only [Node.successors, same]

theorem successors_listBases : (listBases n).successors = n.successors := by
  obtain ⟨bases, made, _, _, _, same⟩ := listBases_spec n
  rw [made]
  simp only [Node.successors, same]

theorem successors_constToEnum : (constToEnum n).successors = n.successors := by
  unfold constToEnum
  split <;> rfl

theorem all_shrink : ∀ rule ∈ all, rule.Shrinks := by
  intro rule listed options n m made i
  simp only [all, List.mem_cons, List.not_mem_nil, or_false] at listed
  rcases listed with rfl | rfl | rfl | rfl | rfl | rfl | rfl | rfl | rfl | rfl | rfl | rfl | rfl |
    rfl | rfl
  · cases made; exact .of_eq successors_dropNullType
  · cases made; exact .of_eq successors_unwrapSingleType
  · cases made; exact .of_eq successors_defaultRequired
  · cases made; exact .of_eq successors_listRequired
  · cases made; exact .of_eq successors_defaultAdditionalProperties
  · exact .of_eq (successors_moveLegacyId made)
  · cases made; exact .of_eq successors_escapeDescription
  · exact .of_eq (successors_documentBounds made)
  · cases made; exact .of_eq successors_stripBounds
  · cases made; exact .of_eq successors_defaultMinItems
  · exact .of_eq (successors_dropWideMaxItems made)
  · exact leadsTo_of_expandItems made
  · cases made; exact .of_eq successors_dropEmptyBases
  · cases made; exact .of_eq successors_listBases
  · cases made; exact .of_eq successors_constToEnum

end Rule
end LinkedSchema
