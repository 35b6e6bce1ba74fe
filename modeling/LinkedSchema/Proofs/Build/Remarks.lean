import LinkedSchema.Proofs.Build.Notes
import LinkedSchema.Proofs.Build.Refusals
import LinkedSchema.Proofs.Schema.Links
/-! What comments are made of: descriptions of nodes, and notes that other nodes call for. The texts
that may go into a comment are given. -/
namespace LinkedSchema

variable {ok : String → Prop} {g : Graph} {n m : Node} {i j : NodeId} {category : Category}
  {name fileName : Option String} {s : Subschema} {keyName : Option String} {text : String}

/-- Nothing, or one of the texts. -/
def IsComment (ok : String → Prop) (v : Json) : Prop := v = .null ∨ ∃ text, v = .str text ∧ ok text

/-- A node whose description and notes are among the texts. -/
structure Node.Speaks (ok : String → Prop) (n : Node) : Prop where
  description : IsComment ok n.description
  patterns : ∀ e ∈ n.patternProperties.getD [], ∀ name, Build.IsOwner name →
    ok (Build.patternNote name e.1)
  definitions : ∀ e ∈ n.definitions.getD [], ∀ name, Build.IsOwner name →
    ok (Build.definitionNote name e.1)

/-- All that a node leads to is in the graph, and speaks in the texts. -/
def Graph.Calm (ok : String → Prop) (g : Graph) (i : NodeId) : Prop :=
  ∀ j, g.Reaches i j → j < g.size ∧ (g.node j).Speaks ok

namespace Node

theorem Speaks.of_fields (speaks : n.Speaks ok) (description : IsComment ok m.description)
    (patterns : m.patternProperties = n.patternProperties)
    (definitions : m.definitions = n.definitions) : m.Speaks ok where
  description := description
  patterns := patterns ▸ speaks.patterns
  definitions := definitions ▸ speaks.definitions

theorem Speaks.unnamed (speaks : n.Speaks ok) : n.unnamed.Speaks ok :=
  speaks.of_fields (.inl rfl) rfl rfl

theorem Speaks.ofType (speaks : n.Speaks ok) (type : Json) : (n.ofType type).Speaks ok :=
  speaks.of_fields (.inl rfl) rfl rfl

end Node

namespace Graph

theorem Calm.leads (calm : g.Calm ok i) (leads : (g.node i).LeadsTo j) : g.Calm ok j :=
  fun k reaches => calm k (.head leads reaches)

theorem Calm.here (calm : g.Calm ok i) : i < g.size ∧ (g.node i).Speaks ok := calm i .refl

/-- A node more changes nothing for those that were calm. -/
theorem Calm.push (calm : g.Calm ok i) (n : Node) : (g.push n).Calm ok i := by
  have back {j : NodeId} (reaches : (g.push n).Reaches i j) : g.Reaches i j := by
    induction reaches with
    | refl => exact .refl
    | tail _ edge ih =>
      obtain ⟨v, hv, here⟩ := edge
      rw [node_push_of_lt (calm _ ih).1] at hv
      exact ih.tail ⟨v, hv, here⟩
  intro j reaches
  obtain ⟨inside, speaks⟩ := calm j (back reaches)
  rw [size_push, node_push_of_lt inside]
  exact ⟨Nat.lt_succ_of_lt inside, speaks⟩

/-- A copy that leads where a calm node leads is calm. -/
theorem Calm.copy (calm : g.Calm ok i) (speaks : n.Speaks ok)
    (same : n.successors = (g.node i).successors) : (g.push n).Calm ok g.size := by
  intro j reaches
  rcases Relation.ReflTransGen.cases_head reaches with rfl | ⟨k, edge, onward⟩
  · rw [size_push, node_push_self]
    exact ⟨Nat.lt_succ_self _, speaks⟩
  · obtain ⟨v, hv, rfl⟩ := edge
    rw [node_push_self, same] at hv
    exact (calm.leads ⟨v, hv, rfl⟩).push n j onward

end Graph

namespace Need

/-- A need whose schema is calm and whose note is among the texts. -/
def Calm (ok : String → Prop) (g : Graph) : Need → Prop
  | .schema s _ note => (∀ j, s = .node j → g.Calm ok j) ∧ ∀ text ∈ note, ok text
  | _ => True

def note? : Need → Option String
  | .schema _ _ note => note
  | _ => none

end Need

namespace Node

variable {form : Form Need} {need : Need}

theorem noteless_schemas {kind : Kind} {members : List Subschema}
    (listed : need ∈ (n.schemasPlan kind members).references) : need.note? = none := by
  rw [schemasPlan, references_collectionPlan] at listed
  obtain ⟨s, _, rfl⟩ := List.mem_map.mp listed
  rfl

theorem noteless_namedEnum (made : n.namedEnumPlan i fileName = .ok form)
    (listed : need ∈ form.references) : need.note? = none := by
  unfold namedEnumPlan at made
  split at made
  · obtain ⟨names, _, made⟩ := bind_ok made
    split at made
    · cases made
      obtain ⟨e, _, rfl⟩ : ∃ e ∈ names.zip _, Need.value e.2 = need := by
        simpa [Form.references, outline, Params.types_choice _ Need.value] using listed
      rfl
    · cases made
  · cases made

theorem noteless_spread {s : Option Subschema} (listed : need ∈ spreadNeed s) :
    need.note? = none := by
  unfold spreadNeed at listed
  split at listed <;> cases listed <;> rfl

theorem noteless_typedArray (listed : need ∈ n.typedArrayPlan.references) :
    need.note? = none := by
  unfold typedArrayPlan at listed
  split at listed
  · rw [schemasPlan, references_tuplePlan, List.mem_append, Option.mem_toList] at listed
    rcases listed with position | spread
    · obtain ⟨s, _, rfl⟩ := List.mem_map.mp position
      rfl
    · exact noteless_spread spread
  · cases List.mem_singleton.mp listed
    rfl
  · cases List.mem_singleton.mp listed
    rfl

theorem noteless_untypedArray (made : n.untypedArrayPlan = .ok form)
    (listed : need ∈ form.references) : need.note? = none := by
  unfold untypedArrayPlan at made
  dsimp only at made
  split at made
  · cases made
    rw [references_tuplePlan, List.mem_append, Option.mem_toList] at listed
    rcases listed with place | spread
    · cases List.eq_of_mem_replicate place
      rfl
    · split at spread <;> cases spread
      rfl
  · cases made
    cases List.mem_singleton.mp listed
    rfl
  · cases made

theorem noted_interface (listed : need ∈ (n.interfacePlan name).references)
    (noted : need.note? = some text) :
    (∃ e ∈ n.patternProperties.getD [], text = Build.patternNote name e.1) ∨
      ∃ e ∈ n.definitions.getD [], text = Build.definitionNote name e.1 := by
  rw [references_interfacePlan] at listed
  simp only [memberNeeds, List.map_append, List.mem_append, List.mem_map] at listed
  rcases listed with (((⟨_, here, rfl⟩ | ⟨_, here, rfl⟩) | ⟨_, here, rfl⟩) | ⟨_, here, rfl⟩) | here
  · obtain ⟨e, _, rfl⟩ := List.mem_map.mp here
    cases noted
  · obtain ⟨e, found, rfl⟩ := List.mem_map.mp here
    refine .inl ⟨e, found, ?_⟩
    split at noted <;> exact (Option.some.inj noted).symm
  · obtain ⟨e, found, rfl⟩ := List.mem_map.mp here
    exact .inr ⟨e, found, (Option.some.inj noted).symm⟩
  · unfold additionalNeeds at here
    split at here
    · split at here
      · cases here
      · cases List.mem_singleton.mp here
        cases noted
    · split at here
      · cases here
      · cases List.mem_singleton.mp here
        cases noted
    · cases List.mem_singleton.mp here
      cases noted
    · cases here
  · unfold superNeeds at here
    split at here
    · cases here
    · obtain ⟨s, _, rfl⟩ := List.mem_map.mp here
      cases noted
    · cases here

/-- Notes are made for patterns and definitions only. -/
theorem note_of_mem {plan : Option String → Except Fault (Form Need)}
    (planned : n.plan i fileName category = .ok plan) (made : plan name = .ok form)
    (listed : need ∈ form.references) (noted : need.note? = some text) :
    (∃ e ∈ n.patternProperties.getD [], text = Build.patternNote name e.1) ∨
      ∃ e ∈ n.definitions.getD [], text = Build.definitionNote name e.1 := by
  have other (none : need.note? = none) : (∃ e ∈ n.patternProperties.getD [],
      text = Build.patternNote name e.1) ∨ ∃ e ∈ n.definitions.getD [],
        text = Build.definitionNote name e.1 := nomatch none.symm.trans noted
  cases category with
  | allOf | anyOf | oneOf =>
    cases planned
    cases made
    exact other (noteless_schemas listed)
  | namedEnum =>
    obtain ⟨enum, found, rfl⟩ := map_ok planned
    cases made
    exact other (noteless_namedEnum found listed)
  | unnamedEnum =>
    obtain ⟨values, _, rfl⟩ := map_ok planned
    cases made
    rw [references_collectionPlan] at listed
    obtain ⟨v, _, rfl⟩ := List.mem_map.mp listed
    cases noted
  | namedSchema | unnamedSchema =>
    cases planned
    cases made
    exact noted_interface listed noted
  | reference => cases planned
  | typedArray =>
    cases planned
    cases made
    exact other (noteless_typedArray listed)
  | untypedArray =>
    cases planned
    exact other (noteless_untypedArray made listed)
  | union =>
    cases planned
    cases made
    rw [references_collectionPlan] at listed
    obtain ⟨type, _, rfl⟩ := List.mem_map.mp listed
    cases noted
  | _ =>
    cases planned
    cases made
    cases listed

/-- What the type of a calm node is made of is calm too. -/
theorem calm_of_mem {plan : Option String → Except Fault (Form Need)} (calm : g.Calm ok i)
    (named : Build.IsOwner name) (planned : (g.node i).plan i fileName category = .ok plan)
    (made : plan name = .ok form) (listed : need ∈ form.references) : need.Calm ok g := by
  have offers : (g.node i).Offers (Need.subject (g.node i) need) :=
    offers_of_need (formIn_of_plan planned made) listed
  cases need with
  | schema s keyName note =>
    refine ⟨fun j here => ?_, fun text noted => ?_⟩
    · subst here
      exact calm.leads (leadsTo_iff.mpr offers)
    · have speaks := calm.here.2
      rcases note_of_mem planned made listed noted with ⟨e, found, rfl⟩ | ⟨e, found, rfl⟩
      · exact speaks.patterns e found name named
      · exact speaks.definitions e found name named
  | _ => trivial

end Node
end LinkedSchema
