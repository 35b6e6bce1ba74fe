import LinkedSchema.Proofs.Build.Agreement
import LinkedSchema.Proofs.Build.Plan
/-! What no type can be made of, told from the graph alone: what has no form, what calls for a name
that cannot be made, and what leads to such a thing. -/
namespace LinkedSchema

variable {g : Graph} {n m : Node} {category : Category} {x y : Subject}
  {form : Form Subject}

namespace Graph

/-- A name can be made for the subject, if one is called for. -/
def CanName (g : Graph) : Subject → Prop
  | .schema (.node i) => (g.node i).Nameable
  | .schema _ => True
  | .whole n => n.Nameable
  | .part n _ => n.Nameable

/-- No type can be made of the subject. -/
inductive Refuses (g : Graph) : Subject → Prop where
  | formless {x : Subject} : g.form x = none → Refuses g x
  | nameless {x : Subject} : ¬ g.CanName x → Refuses g x
  | leads {x y : Subject} {form : Form Subject} : g.form x = some form → y ∈ form.references →
      Refuses g y → Refuses g x

theorem Refuses.of_same (refused : g.Refuses x) (form : g.form x = g.form y)
    (named : g.CanName x ↔ g.CanName y) : g.Refuses y := by
  cases refused with
  | formless none => exact .formless (form ▸ none)
  | nameless nameless => exact .nameless (mt named.mpr nameless)
  | leads made refers below => exact .leads (form ▸ made) refers below

end Graph

namespace Node

theorem references_tuple (n : Node) (kind : Kind) (members : List Subject) (lower upper : Json)
    (spread : Option Subject) :
    Form.references { n.collectionForm kind members with
      minItems := lower, maxItems := upper, spread } = members ++ spread.toList := by
  simp [collectionForm, bareForm, Form.references, Params.types_type]

theorem references_collectionForm (n : Node) (kind : Kind) (members : List Subject) :
    (n.collectionForm kind members).references = members :=
  (references_tuple n kind members .null .null none).trans (List.append_nil _)

theorem references_interfaceForm (n : Node) : n.interfaceForm.references =
    (n.propertyForms ++ n.patternForms ++ n.definitionForms ++ n.additionalForms).map (·.type) ++
      n.superForms := by
  simp only [interfaceForm, bareForm, Form.references, Params.types_member, Option.toList_none,
    List.append_nil]

theorem form_of_single (only : n.categories = [category]) : n.form = n.formIn category := by
  simp only [Node.form, only]

theorem Similar.nameable (similar : n.Similar m) : n.Nameable ↔ m.Nameable := by
  rcases similar with rfl | ⟨type, rfl, _, _⟩
  · exact Iff.rfl
  · exact Iff.rfl

/-- What forms of a node may refer to: the schemas below it and its copies for its types. -/
def Offers (n : Node) : Subject → Prop
  | .schema (.node j) => .node j ∈ n.children
  | .schema _ => True
  | .whole m => m.type ∈ n.typeList
  | .part _ _ => False

theorem offers_schema {s : Subschema} (child : s ∈ n.children) : n.Offers (.schema s) := by
  cases s with
  | node j => exact child
  | bool allowed => trivial
  | bare v => trivial

theorem offers_collection {kind : Kind} {members : List Subject}
    (each : ∀ x ∈ members, n.Offers x) :
    ∀ x ∈ (n.collectionForm kind members).references, n.Offers x := by
  rwa [references_collectionForm]

theorem offers_schemas {kind : Kind} {members : List Subschema} (children : members ⊆ n.children) :
    ∀ x ∈ (n.collectionForm kind (members.map .schema)).references, n.Offers x := by
  refine offers_collection fun x listed => ?_
  obtain ⟨s, member, rfl⟩ := List.mem_map.mp listed
  exact offers_schema (children member)

theorem offers_spread {s : Option Subschema} (children : s.toList ⊆ n.children) :
    ∀ x ∈ spreadSubject s, n.Offers x := by
  intro x listed
  unfold spreadSubject at listed
  split at listed
  · cases listed
    trivial
  · cases listed
    exact offers_schema (children List.mem_cons_self)
  · cases listed

theorem offers_typedArray (n : Node) : ∀ x ∈ n.typedArrayForm.references, n.Offers x := by
  intro x listed
  unfold typedArrayForm at listed
  cases found : n.items with
  | none =>
    rw [found] at listed
    rw [List.mem_singleton.mp listed]
    trivial
  | some items =>
    rw [found] at listed
    cases items with
    | each item =>
      rw [List.mem_singleton.mp listed]
      exact offers_schema (by simp [children, found, Items.toList])
    | positions items =>
      rw [references_tuple] at listed
      rcases List.mem_append.mp listed with member | spread
      · obtain ⟨s, here, rfl⟩ := List.mem_map.mp member
        exact offers_schema (by simp [children, found, Items.toList, here])
      · refine offers_spread (fun s here => ?_) x (Option.mem_toList.mp spread)
        simp [children, Option.mem_toList.mp here]

theorem offers_untypedArray (made : n.untypedArrayForm = some form) :
    ∀ x ∈ form.references, n.Offers x := by
  obtain ⟨places, _, rfl⟩ := Option.map_eq_some_iff.mp made
  intro x listed
  have anything : x = .schema (.bool true) := by
    cases places with
    | none => exact List.mem_singleton.mp listed
    | some places =>
      simp only [references_tuple, List.mem_append, Option.mem_toList] at listed
      rcases listed with member | spread
      · exact List.eq_of_mem_replicate member
      · split at spread
        · cases spread
        · exact (Option.mem_some.mp spread).symm
  rw [anything]
  trivial

theorem offers_namedEnum (made : n.namedEnumForm = some form) :
    ∀ x ∈ form.references, n.Offers x := by
  intro x listed
  unfold namedEnumForm at made
  split at made
  · obtain ⟨names, _, made⟩ := Option.bind_eq_some_iff.mp made
    split at made
    · cases made
      obtain ⟨e, _, rfl⟩ : ∃ e ∈ names.zip _, .schema (.bare e.2) = x := by
        simpa [Form.references, bareForm,
          Params.types_choice _ fun v => Subject.schema (.bare v)] using listed
      trivial
    · cases made
  · cases made

theorem offers_additional (n : Node) : ∀ e ∈ n.additionalForms, n.Offers e.type := by
  intro e listed
  have anything : e ∈ (if Build.hasSinglePattern n then []
      else [{ key := indexKey, type := .schema (.bool true), isRequired := true }] :
        List (Member Subject)) → n.Offers e.type := by
    intro here
    split at here
    · cases here
    · rw [List.mem_singleton.mp here]
      trivial
  unfold additionalForms at listed
  split at listed
  · exact anything listed
  · exact anything listed
  · rename_i j found
    rw [List.mem_singleton.mp listed]
    exact offers_schema (by simp [children, found])
  · cases listed

theorem offers_interface (n : Node) : ∀ x ∈ n.interfaceForm.references, n.Offers x := by
  intro x listed
  simp only [references_interfaceForm, List.map_append, List.mem_append, List.mem_map] at listed
  rcases listed with (((⟨_, here, rfl⟩ | ⟨_, here, rfl⟩) | ⟨_, here, rfl⟩) | ⟨_, here, rfl⟩) | super
  · obtain ⟨e, found, rfl⟩ := List.mem_map.mp here
    exact offers_schema (property_mem_children found)
  · obtain ⟨e, found, rfl⟩ := List.mem_map.mp here
    split <;> exact offers_schema (pattern_mem_children found)
  · obtain ⟨e, found, rfl⟩ := List.mem_map.mp here
    exact offers_schema (definition_mem_children found)
  · exact offers_additional n _ here
  · unfold superForms at super
    split at super
    · cases super
    · rename_i bases found
      obtain ⟨s, here, rfl⟩ := List.mem_map.mp super
      exact offers_schema (by simp [children, found, here])
    · cases super

/-- A form of a node refers to nothing else. -/
theorem offers_of_mem (made : n.formIn category = some form) (refers : x ∈ form.references) :
    n.Offers x := by
  cases category with
  | allOf =>
    cases made
    exact offers_schemas (fun s listed => by simp [children, listed]) x refers
  | anyOf =>
    cases made
    exact offers_schemas (fun s listed => by simp [children, listed]) x refers
  | oneOf =>
    cases made
    exact offers_schemas (fun s listed => by simp [children, listed]) x refers
  | namedEnum => exact offers_namedEnum made x refers
  | unnamedEnum =>
    obtain ⟨values, _, rfl⟩ := Option.map_eq_some_iff.mp made
    refine offers_collection (fun x listed => ?_) x refers
    obtain ⟨v, _, rfl⟩ := List.mem_map.mp listed
    trivial
  | namedSchema =>
    cases made
    exact offers_interface n x refers
  | unnamedSchema =>
    cases made
    exact offers_interface n x refers
  | reference => cases made
  | typedArray =>
    cases made
    exact offers_typedArray n x refers
  | untypedArray => exact offers_untypedArray made x refers
  | union =>
    cases made
    refine offers_collection (fun x listed => ?_) x refers
    obtain ⟨type, here, rfl⟩ := List.mem_map.mp listed
    exact here
  | _ =>
    cases made
    cases refers

theorem offers_of_need {needs : Form Need} {need : Need}
    (made : n.formIn category = some (needs.map (Need.subject n)))
    (listed : need ∈ needs.references) : n.Offers (need.subject n) := by
  apply offers_of_mem made
  rw [Form.references_map]
  exact List.mem_map_of_mem listed

theorem Offers.below {s : Subschema} {size : Nat} (offered : n.Offers (.schema s))
    (children : ∀ s ∈ n.children, s.Below size) : s.Below size := by
  cases s with
  | node j => exact children _ offered
  | bool allowed => trivial
  | bare v => trivial

variable {i : NodeId} {fileName name : Option String}

theorem formIn_of_plan {plan : Option String → Except Fault (Form Need)} {needs : Form Need}
    (planned : n.plan i fileName category = .ok plan) (made : plan name = .ok needs) :
    n.formIn category = some (needs.map (Need.subject n)) := by
  rw [← map_plan i fileName name, planned]
  simp only [Except.bind, made, Except.toOption, Option.map_some]

theorem formIn_of_planError {e : Fault} (fault : n.plan i fileName category = .error e) :
    n.formIn category = none := by
  rw [← map_plan i fileName none, fault]
  rfl

theorem formIn_of_lateError {plan : Option String → Except Fault (Form Need)} {e : Fault}
    (planned : n.plan i fileName category = .ok plan) (fault : plan name = .error e) :
    n.formIn category = none := by
  rw [← map_plan i fileName name, planned]
  simp only [Except.bind, fault, Except.toOption, Option.map_none]

end Node

namespace Graph.Refuses

theorem part_similar (refused : g.Refuses (.part n category)) (similar : n.Similar m) :
    g.Refuses (.part m category) :=
  refused.of_same (similar.formIn category) similar.nameable

/-- What is refused of a node of one category is refused of the node. -/
theorem whole_of_single (refused : g.Refuses (.part n category))
    (only : n.categories = [category]) : g.Refuses (.whole n) :=
  refused.of_same (Node.form_of_single only).symm Iff.rfl

theorem part_of_single (refused : g.Refuses (.whole n)) (only : n.categories = [category]) :
    g.Refuses (.part n category) :=
  refused.of_same (Node.form_of_single only) Iff.rfl

theorem whole_of_several (several : ∀ c, n.categories ≠ [c]) (listed : category ∈ n.categories)
    (refused : g.Refuses (.part n.unnamed category)) : g.Refuses (.whole n) := by
  refine .leads (Node.form_of_several several) ?_ refused
  rw [Node.references_collectionForm]
  exact List.mem_map.mpr ⟨category, listed, rfl⟩

theorem whole_similar (refused : g.Refuses (.whole n)) (similar : n.Similar m) :
    g.Refuses (.whole m) := by
  have same := similar.categories
  by_cases several : ∀ c, n.categories ≠ [c]
  · cases refused with
    | formless none =>
      rw [show g.form (.whole n) = n.form from rfl, Node.form_of_several several] at none
      cases none
    | nameless nameless => exact .nameless (mt similar.nameable.mpr nameless)
    | leads made refers below =>
      rw [show g.form (.whole n) = n.form from rfl, Node.form_of_several several] at made
      cases made
      rw [Node.references_collectionForm] at refers
      obtain ⟨category, listed, rfl⟩ := List.mem_map.mp refers
      exact (below.part_similar similar.unnamed).whole_of_several (same ▸ several) (same ▸ listed)
  · obtain ⟨category, only⟩ := not_forall_not.mp several
    exact ((refused.part_of_single only).part_similar similar).whole_of_single (same ▸ only)

end Graph.Refuses
end LinkedSchema
