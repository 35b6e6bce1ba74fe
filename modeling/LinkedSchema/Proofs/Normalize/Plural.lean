import LinkedSchema.Proofs.Normalize.Abreast
import LinkedSchema.Proofs.Normalize.Alterations
import LinkedSchema.Proofs.Normalize.Normal
/-! Nodes of several types, without a constant and an enumeration. No rule takes a type away from
them, and their defaults make no difference to any rule. -/
namespace LinkedSchema

variable {g h : Graph} {root : NodeId} {options : Options} {fileName : Option String} {rule : Rule}
  {rules : List Rule} {n m : Node} {types : List Json}

namespace Node

/-- A node of several types, without a constant and an enumeration. -/
structure Plural (types : List Json) (n : Node) : Prop where
  type : n.type = .arr types
  several : 2 ≤ types.length
  const : n.const = none
  enum : n.enum = .null

/-- The same node, or one of several types with another default. -/
def SameButDefault (n m : Node) : Prop :=
  (∃ default, m = { n with default }) ∧ (m = n ∨ ∃ types, n.Plural types)

end Node

namespace Rule

theorem dropNullType_of_plural (plural : n.Plural types) : dropNullType n = n := by
  have none : admitsNull n = false := by simp [admitsNull, plural.const, plural.enum]
  unfold dropNullType
  split
  · rw [none]
    rfl
  · rfl

theorem unwrapSingleType_of_plural (plural : n.Plural types) : unwrapSingleType n = n := by
  unfold unwrapSingleType
  split
  · rename_i type single
    have several := plural.several
    cases plural.type.symm.trans single
    exact absurd several (by simp)
  · rfl

theorem constToEnum_of_plural (plural : n.Plural types) : constToEnum n = n := by
  unfold constToEnum
  split
  · rename_i v given
    cases plural.const.symm.trans given
  · rfl

theorem plural_of_rule (listed : rule ∈ all) (plural : n.Plural types)
    (made : rule.apply options n = .ok m) : m.Plural types := by
  simp only [all, List.mem_cons, List.not_mem_nil, or_false] at listed
  rcases listed with rfl | rfl | rfl | rfl | rfl | rfl | rfl | rfl | rfl | rfl | rfl | rfl | rfl |
    rfl | rfl
  · cases made
    rwa [dropNullType_of_plural plural]
  · cases made
    rwa [unwrapSingleType_of_plural plural]
  · obtain ⟨required, same, _⟩ := defaultRequired_spec n
    cases made
    exact same ▸ { plural with }
  · obtain ⟨required, same, _⟩ := listRequired_spec n
    cases made
    exact same ▸ { plural with }
  · obtain ⟨additional, same, _⟩ := defaultAdditionalProperties_spec n
    cases made
    exact same ▸ { plural with }
  · obtain ⟨id, legacyId, rfl, _⟩ := moveLegacyId_spec made
    exact { plural with }
  · obtain ⟨description, same⟩ := escapeDescription_writes n
    cases made
    exact same ▸ { plural with }
  · obtain ⟨description, rfl⟩ := documentBounds_writes made
    exact { plural with }
  · obtain ⟨minItems, maxItems, same, _⟩ := stripBounds_spec options n
    cases made
    exact same ▸ { plural with }
  · obtain ⟨minItems, same, _⟩ := defaultMinItems_spec n
    cases made
    exact same ▸ { plural with }
  · obtain ⟨maxItems, rfl⟩ := dropWideMaxItems_writes made
    exact { plural with }
  · obtain ⟨items, additionalItems, rfl, _⟩ := expandItems_spec made
    exact { plural with }
  · obtain ⟨bases, same, _⟩ := dropEmptyBases_spec n
    cases made
    exact same ▸ { plural with }
  · obtain ⟨bases, same, _⟩ := listBases_spec n
    cases made
    exact same ▸ { plural with }
  · cases made
    rwa [constToEnum_of_plural plural]

theorem plural_of_pass (listed : ∀ rule ∈ rules, rule ∈ all) (plural : n.Plural types)
    (made : pass rules options n = .ok m) : m.Plural types := by
  induction rules generalizing n with
  | nil =>
    cases made
    exact plural
  | cons rule rules ih =>
    obtain ⟨k, first, rest⟩ := bind_ok (pass_cons.symm.trans made)
    have here := plural_of_rule (listed rule List.mem_cons_self) plural first
    exact ih (fun r hr => listed r (List.mem_cons_of_mem _ hr)) here rest

theorem carries_sameButDefault (listed : rule ∈ all) :
    rule.Carries options Node.SameButDefault := by
  rintro n _ ⟨⟨default, rfl⟩, plural⟩
  have same : rule.apply options { n with default } =
      (rule.apply options n).map fun k => { k with default } :=
    ignores_default (fun _ => default) listed options n
  rw [same]
  cases made : rule.apply options n with
  | error e => exact .error e e
  | ok k =>
    refine .ok ⟨⟨default, rfl⟩, ?_⟩
    rcases plural with unchanged | ⟨types, plural⟩
    · rw [unchanged, made] at same
      exact .inl (Except.ok.inj same).symm
    · exact .inr ⟨types, plural_of_rule listed plural made⟩

end Rule

namespace Graph

variable (root options fileName) in
/-- Graphs whose nodes of several types differ in their defaults are normalized to such graphs. -/
theorem normalize_sameButDefault (kindred : g.Kindred Node.SameButDefault h) :
    InStep (fun _ => True) Node.SameButDefault (normalize options fileName root g)
      (normalize options fileName root h) := by
  have abreast : g.Abreast (fun _ => True) Node.SameButDefault h :=
    ⟨kindred.size, fun i _ => kindred.node i, fun _ _ _ _ => trivial⟩
  refine abreast.applyRules root options fileName ?_
    (fun _ listed => Rule.carries_sameButDefault listed) Rule.all_shrink trivial
  rintro n _ ⟨⟨default, rfl⟩, _⟩
  rfl

end Graph
end LinkedSchema
