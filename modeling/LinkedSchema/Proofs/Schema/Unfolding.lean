import LinkedSchema.Proofs.Schema.Documented
import LinkedSchema.Proofs.Schema.Tidy
/-! Exports as unfoldings of a graph. They are trees of objects with known keywords, and as deep as
there are nodes at most. -/
namespace LinkedSchema

variable {n : Node} {f f' ofNode : NodeId → Json} {g : Graph} {s : Subschema} {i : NodeId}
  {path : List NodeId} {fuel : Nat}

namespace Node

section

variable (same : ∀ s ∈ n.children, s.toJson f = s.toJson f')
include same

theorem listJson_congr {members : List Subschema} (among : members ⊆ n.children) :
    listJson f members = listJson f' members :=
  congrArg Json.arr (List.map_congr_left fun s hs => same s (among hs))

theorem mapJson_congr {entries : Entries Subschema} (among : entries.map (·.2) ⊆ n.children) :
    mapJson f entries = mapJson f' entries := by
  refine congrArg Json.obj (List.map_congr_left fun e he => ?_)
  rw [same e.2 (among (List.mem_map_of_mem he))]

theorem itemsJson_congr {items : Items} (among : items.toList ⊆ n.children) :
    items.toJson f = items.toJson f' := by
  cases items with
  | each s => exact same s (among (List.mem_singleton_self s))
  | positions members => exact listJson_congr same among

theorem basesJson_congr {bases : Bases} (among : bases.toList ⊆ n.children) :
    bases.toJson f = bases.toJson f' := by
  cases bases with
  | null => rfl
  | one s => exact same s (among (List.mem_singleton_self s))
  | many members => exact listJson_congr same among

/-- An export depends only on what is written for the children. -/
theorem keywords_congr : n.keywords f = n.keywords f' := by
  rw [keywords_eq, keywords_eq]
  unfold exported
  have additionalProperties : n.additionalProperties.map (·.toJson f) =
      n.additionalProperties.map (·.toJson f') :=
    Option.map_congr fun s hs => same s (by simp [children, hs])
  have additionalItems : n.additionalItems.map (·.toJson f) =
      n.additionalItems.map (·.toJson f') :=
    Option.map_congr fun s hs => same s (by simp [children, hs])
  have allOf : n.allOf.map (listJson f) = n.allOf.map (listJson f') :=
    Option.map_congr fun x hx => listJson_congr same fun s hs => by simp [children, hx, hs]
  have anyOf : n.anyOf.map (listJson f) = n.anyOf.map (listJson f') :=
    Option.map_congr fun x hx => listJson_congr same fun s hs => by simp [children, hx, hs]
  have oneOf : n.oneOf.map (listJson f) = n.oneOf.map (listJson f') :=
    Option.map_congr fun x hx => listJson_congr same fun s hs => by simp [children, hx, hs]
  have properties : n.properties.map (mapJson f) = n.properties.map (mapJson f') :=
    Option.map_congr fun x hx => mapJson_congr same fun s hs => by
      simp only [children, Option.mem_def.mp hx, Option.getD_some, List.mem_append, hs, true_or]
  have patterns : n.patternProperties.map (mapJson f) = n.patternProperties.map (mapJson f') :=
    Option.map_congr fun x hx => mapJson_congr same fun s hs => by
      simp only [children, Option.mem_def.mp hx, Option.getD_some, List.mem_append, hs, true_or,
        or_true]
  have definitions : n.definitions.map (mapJson f) = n.definitions.map (mapJson f') :=
    Option.map_congr fun x hx => mapJson_congr same fun s hs => by
      simp only [children, Option.mem_def.mp hx, Option.getD_some, List.mem_append, hs, true_or,
        or_true]
  have items : n.items.map (·.toJson f) = n.items.map (·.toJson f') :=
    Option.map_congr fun x hx => itemsJson_congr same fun s hs => by simp [children, hx, hs]
  have bases : n.bases.map (·.toJson f) = n.bases.map (·.toJson f') :=
    Option.map_congr fun x hx => basesJson_congr same fun s hs => by simp [children, hx, hs]
  rw [additionalProperties, additionalItems, allOf, anyOf, oneOf, properties, patterns, items,
    bases, definitions]

end
end Node

namespace Graph

/-- As much fuel as there are nodes off the path is enough. -/
theorem exportBelow_enough (closed : g.Closed) : ∀ (fuel more : Nat) (path : List NodeId) (i : NodeId),
    i < g.size → (g.unseen path).length ≤ fuel → fuel ≤ more →
    g.exportBelow more path i = g.exportBelow fuel path i := by
  intro fuel
  induction fuel with
  | zero =>
    intro more path i inside few _
    have known : i ∈ path := by
      by_contra new
      have fewer := unseen_cons_lt inside new
      omega
    cases more with
    | zero => rfl
    | succ more => exact if_pos (by simpa using known)
  | succ fuel ih =>
    intro more path i inside few le
    cases more with
    | zero => omega
    | succ more =>
      rw [exportBelow, exportBelow]
      by_cases known : i ∈ path
      · rw [if_pos (by simpa using known), if_pos (by simpa using known)]
      · rw [if_neg (by simpa using known), if_neg (by simpa using known)]
        have fewer := unseen_cons_lt inside known
        refine congrArg Json.obj (Node.keywords_congr fun s child => ?_)
        cases s with
        | node j => exact ih more (i :: path) j (closed i inside _ child) (by omega) (by omega)
        | _ => rfl

theorem exportBelow_toJson (closed : g.Closed) (inside : i < g.size) (enough : g.size ≤ fuel) :
    g.exportBelow fuel [] i = g.toJson i := by
  have few : (g.unseen []).length ≤ g.size := by simp [unseen]
  exact exportBelow_enough closed g.size fuel [] i inside few enough

end Graph

/-- Objects with the keywords of a node, where what stands for its children is of the same kind
again. -/
inductive Json.Unfolded : Json → Prop
  | object (n : Node) (ofNode : NodeId → Json) : (∀ v, .bare v ∉ n.children) →
      (∀ j, .node j ∈ n.children → (ofNode j).Unfolded) → Unfolded (.obj (n.keywords ofNode))

theorem unfolded_cycleMark : cycleMark.Unfolded :=
  .object { ref := .str "#cycle" } (fun _ => .null) nofun nofun

theorem Graph.Proper.unfolded (proper : g.Proper) (fuel : Nat) (path : List NodeId) (i : NodeId) :
    (g.exportBelow fuel path i).Unfolded := by
  induction fuel generalizing path i with
  | zero => exact unfolded_cycleMark
  | succ fuel ih =>
    rw [exportBelow]
    split
    · exact unfolded_cycleMark
    · exact .object (g.node i) _ (fun v child => proper.node i _ child) fun j _ => ih (i :: path) j

end LinkedSchema
