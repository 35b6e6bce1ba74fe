import LinkedSchema.Proofs.Build.Plan
import LinkedSchema.Proofs.Results
import LinkedSchema.Proofs.Schema.Renumbering
/-! Plans for nodes with other numbers. They need the same in the same order, with these numbers. -/
namespace LinkedSchema

variable {n : Node} {f : NodeId → NodeId} {p : Option NodeId} {i : NodeId} {category : Category}
  {fileName name other : Option String} {kind : Kind} {x : Form Need}

/-- A need with other numbers, under whatever key, and with whatever note if with any. -/
inductive Need.Follows (f : NodeId → NodeId) : Need → Need → Prop
  | any (keyName other : Option String) : Follows f (.any keyName) (.any other)
  | value (v : Json) : Follows f (.value v) (.value v)
  | copy (type : Json) : Follows f (.copy type) (.copy type)
  | schema (s : Subschema) (keyName other : Option String) :
      Follows f (.schema s keyName) (.schema (s.renumber f) other)
  | noted (s : Subschema) (keyName other : Option String) (note another : String) :
      Follows f (.schema s keyName (some note)) (.schema (s.renumber f) other (some another))

theorem forall₂_map {α β γ : Type} {R : β → γ → Prop} {g : α → β} {h : α → γ} {xs : List α}
    (each : ∀ a, R (g a) (h a)) : List.Forall₂ R (xs.map g) (xs.map h) :=
  List.forall₂_map_left_iff.mpr (List.forall₂_map_right_iff.mpr
    (List.forall₂_same.mpr fun a _ => each a))

theorem Need.follows_schemas (members : List Subschema) :
    List.Forall₂ (Need.Follows f) (members.map fun s => .schema s)
      ((members.map (·.renumber f)).map fun s => .schema s) := by
  rw [List.map_map]
  exact forall₂_map fun s => .schema s none none

namespace Node

/-- The plan of an enumeration has values only. -/
theorem follows_namedEnumPlan (made : n.namedEnumPlan i fileName = .ok x)
    (j : NodeId) (other : Option String) : (n.renumber f p).namedEnumPlan j other = .ok x ∧
      List.Forall₂ (Need.Follows f) x.references x.references := by
  have enum : (n.renumber f p).enum = n.enum := rfl
  have names : (n.renumber f p).enumNames? = n.enumNames? := rfl
  unfold namedEnumPlan at made ⊢
  rw [enum, names]
  split at made
  · rename_i values _
    obtain ⟨names, listed, made⟩ := bind_ok made
    split at made
    · rename_i lengths
      cases made
      refine ⟨?_, ?_⟩
      · rw [listed, Except.bind, if_pos lengths]
        rfl
      · simp only [Form.references, outline, Params.types_choice, Option.toList_none,
          List.append_nil]
        exact forall₂_map fun e => .value e.2
    · cases made
  · cases made

theorem hasSinglePattern_renumber :
    Build.hasSinglePattern (n.renumber f p) = Build.hasSinglePattern n := by
  unfold Build.hasSinglePattern
  cases patterns : n.patternProperties with
  | none => simp only [renumber, patterns, Option.map_none]
  | some entries =>
    rcases entries with _ | ⟨e, _ | ⟨e', rest⟩⟩
    · simp only [renumber, patterns, Option.map_some, Entries.renumber, List.map_nil]
    · cases additional : n.additionalProperties with
      | none => simp only [renumber, patterns, additional, Option.map_some, Option.map_none,
          Entries.renumber, List.map_cons, List.map_nil]
      | some s =>
        simp only [renumber, patterns, additional, Option.map_some, Entries.renumber,
          List.map_cons, List.map_nil]
        cases s <;> rfl
    · simp only [renumber, patterns, Option.map_some, Entries.renumber, List.map_cons]

theorem getD_renumber (entries : Option (Entries Subschema)) :
    (entries.map (Entries.renumber f)).getD [] =
      (entries.getD []).map fun e => (e.1, e.2.renumber f) :=
  Option.getD_map (Entries.renumber f) [] entries

theorem follows_propertyNeeds : List.Forall₂ (Need.Follows f)
    (n.propertyNeeds.map (·.type)) ((n.renumber f p).propertyNeeds.map (·.type)) := by
  unfold propertyNeeds
  simp only [renumber, getD_renumber, List.map_map]
  exact forall₂_map fun e => .schema e.2 _ _

theorem follows_patternNeeds : List.Forall₂ (Need.Follows f)
    ((n.patternNeeds name).map (·.type)) (((n.renumber f p).patternNeeds other).map (·.type)) := by
  unfold patternNeeds
  rw [hasSinglePattern_renumber]
  simp only [renumber, getD_renumber, List.map_map]
  refine forall₂_map fun e => ?_
  cases Build.hasSinglePattern n <;> exact .noted e.2 _ _ _ _

theorem follows_definitionNeeds : List.Forall₂ (Need.Follows f)
    ((n.definitionNeeds name).map (·.type))
      (((n.renumber f p).definitionNeeds other).map (·.type)) := by
  unfold definitionNeeds
  simp only [renumber, getD_renumber, List.map_map]
  exact forall₂_map fun e => .noted e.2 _ _ _ _

theorem follows_additionalNeeds : List.Forall₂ (Need.Follows f)
    (n.additionalNeeds.map (·.type)) ((n.renumber f p).additionalNeeds.map (·.type)) := by
  have anything : List.Forall₂ (Need.Follows f) [.any (some indexKey)] [.any (some indexKey)] :=
    .cons (.any _ _) .nil
  have given : (n.renumber f p).additionalProperties =
    n.additionalProperties.map (·.renumber f) := rfl
  unfold additionalNeeds
  rw [hasSinglePattern_renumber, given]
  cases n.additionalProperties with
  | none => cases Build.hasSinglePattern n <;> first | exact anything | exact .nil
  | some s =>
    cases s with
    | bool allowed =>
      cases allowed <;> cases Build.hasSinglePattern n <;> first | exact anything | exact .nil
    | bare v => exact .nil
    | node j => exact .cons (.schema (.node j) _ _) .nil

theorem follows_memberNeeds : List.Forall₂ (Need.Follows f) ((n.memberNeeds name).map (·.type))
    (((n.renumber f p).memberNeeds other).map (·.type)) := by
  simp only [memberNeeds, List.map_append]
  exact List.rel_append (List.rel_append (List.rel_append follows_propertyNeeds
    follows_patternNeeds) follows_definitionNeeds) follows_additionalNeeds

theorem follows_superNeeds :
    List.Forall₂ (Need.Follows f) n.superNeeds (n.renumber f p).superNeeds := by
  have given : (n.renumber f p).bases = n.bases.map (·.renumber f) := rfl
  unfold superNeeds
  rw [given]
  cases n.bases with
  | none => exact .nil
  | some bases =>
    cases bases with
    | null => exact .nil
    | many bases => exact Need.follows_schemas bases
    | one base =>
      cases base with
      | bool allowed =>
        cases allowed with
        | true => exact Need.follows_schemas [.bool true]
        | false => exact .nil
      | bare v => exact Need.follows_schemas [.bare v]
      | node j => exact Need.follows_schemas [.node j]

theorem follows_spreadNeed (additional : Option Subschema) : List.Forall₂ (Need.Follows f)
    (spreadNeed additional).toList (spreadNeed (additional.map (·.renumber f))).toList := by
  cases additional with
  | none => exact .nil
  | some s =>
    cases s with
    | bool allowed => cases allowed <;> first | exact .nil | exact .cons (.any none none) .nil
    | bare v => exact .nil
    | node j => exact Need.follows_schemas [.node j]

theorem references_typedArrayPlan {items : List Subschema}
    (tuple : n.items = some (.positions items)) : n.typedArrayPlan.references =
      (items.map fun s => .schema s) ++ (spreadNeed n.additionalItems).toList := by
  unfold typedArrayPlan
  rw [tuple]
  exact references_tuplePlan _ _ _ _ _

theorem follows_typedArrayPlan : List.Forall₂ (Need.Follows f) n.typedArrayPlan.references
    (n.renumber f p).typedArrayPlan.references := by
  have given : (n.renumber f p).items = n.items.map (·.renumber f) := rfl
  cases items : n.items with
  | none =>
    rw [items] at given
    simp only [typedArrayPlan, items, given, Option.map_none]
    exact Need.follows_schemas [.bare .null]
  | some items' =>
    rw [items] at given
    cases items' with
    | each item =>
      simp only [typedArrayPlan, items, given, Option.map_some, Items.renumber]
      exact Need.follows_schemas [item]
    | positions members =>
      rw [references_typedArrayPlan items, references_typedArrayPlan given]
      exact List.rel_append (Need.follows_schemas members) (follows_spreadNeed n.additionalItems)

/-- The plan for an array of anything needs nothing else. -/
theorem follows_untypedArrayPlan (made : n.untypedArrayPlan = .ok x) :
    (n.renumber f p).untypedArrayPlan = .ok x ∧
      List.Forall₂ (Need.Follows f) x.references x.references := by
  have again : (n.renumber f p).untypedArrayPlan = n.untypedArrayPlan := rfl
  refine ⟨again.trans made, List.forall₂_same.mpr fun need listed => ?_⟩
  suffices anything : need = .any by
    rw [anything]
    exact .any none none
  unfold untypedArrayPlan at made
  dsimp only at made
  split at made
  · cases made
    rw [references_tuplePlan, List.mem_append] at listed
    rcases listed with place | spread
    · exact List.eq_of_mem_replicate place
    · split at spread <;> simp_all
  · cases made
    simpa [Form.references, outline, Params.types] using listed
  · cases made

theorem follows_schemasPlan (members : Option (List Subschema)) :
    List.Forall₂ (Need.Follows f) (n.schemasPlan kind (members.getD [])).references
      ((n.renumber f p).schemasPlan kind
        ((members.map (·.map (·.renumber f))).getD [])).references := by
  rw [schemasPlan, schemasPlan, references_collectionPlan, references_collectionPlan,
    show (members.map (·.map (·.renumber f))).getD [] = (members.getD []).map (·.renumber f) from
      Option.getD_map _ [] members]
  exact Need.follows_schemas _

theorem plan_renumber {plan : Option String → Except Fault (Form Need)}
    (planned : n.plan i fileName category = .ok plan) (made : plan name = .ok x) (j : NodeId)
    (otherFile : Option String) :
    ∃ plan', (n.renumber f p).plan j otherFile category = .ok plan' ∧
      ∀ name, ∃ y, plan' name = .ok y ∧
        List.Forall₂ (Need.Follows f) x.references y.references := by
  cases category with
  | namedEnum =>
    obtain ⟨enum, found, rfl⟩ := map_ok planned
    cases made
    obtain ⟨again, follows⟩ := follows_namedEnumPlan (f := f) (p := p) found j otherFile
    exact ⟨_, congrArg (Except.map _) again, fun _ => ⟨_, rfl, follows⟩⟩
  | unnamedEnum =>
    obtain ⟨values, found, rfl⟩ := map_ok planned
    cases made
    refine ⟨_, congrArg (Except.map _) found, fun _ => ⟨_, rfl, ?_⟩⟩
    rw [references_collectionPlan, references_collectionPlan]
    exact forall₂_map fun v => .value v
  | namedSchema | unnamedSchema =>
    cases planned
    cases made
    refine ⟨_, rfl, fun other => ⟨_, rfl, ?_⟩⟩
    rw [references_interfacePlan, references_interfacePlan]
    exact List.rel_append follows_memberNeeds follows_superNeeds
  | reference => cases planned
  | untypedArray =>
    cases planned
    obtain ⟨made, follows⟩ := follows_untypedArrayPlan (f := f) (p := p) made
    exact ⟨_, rfl, fun _ => ⟨_, made, follows⟩⟩
  | typedArray =>
    cases planned
    cases made
    exact ⟨_, rfl, fun other => ⟨_, rfl, follows_typedArrayPlan⟩⟩
  | union =>
    cases planned
    cases made
    refine ⟨_, rfl, fun _ => ⟨_, rfl, ?_⟩⟩
    rw [references_collectionPlan, references_collectionPlan]
    exact forall₂_map fun type => .copy type
  | allOf | anyOf | oneOf =>
    cases planned
    cases made
    exact ⟨_, rfl, fun other => ⟨_, rfl, follows_schemasPlan _⟩⟩
  | _ =>
    cases planned
    cases made
    exact ⟨_, rfl, fun _ => ⟨_, rfl, .nil⟩⟩

end Node
end LinkedSchema
