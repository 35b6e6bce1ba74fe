import LinkedSchema.Proofs.Build.Failures
import LinkedSchema.Proofs.Build.Parentless
import LinkedSchema.Proofs.Normalize.Enumerations
import LinkedSchema.Proofs.Types.Leaves
/-! The types of enumerations: a union of literals for each declared type that has values to list,
the type of nulls for the one that has none. -/
namespace LinkedSchema

variable {g : Graph} {b : Builder} {t : TypeId} {x : Subject} {name : String}
  {names : List String} {values types : List Json} {v : Json} {fields : Entries Json}

theorem namesTypes_ofNames (names : List String) : (Json.ofNames names).NamesTypes := by
  unfold Json.ofNames
  split
  · trivial
  · intro v listed
    obtain ⟨name, _, rfl⟩ := List.mem_map.mp listed
    rfl

namespace Node

/-- What an enumeration is built from once it is normalized, or copied for one of its types. -/
def listing (type : Json) (values : List Json) : Node := .enumeration type (.arr values) none

theorem categories_listing_name (listed : name ∈ enumTypes) :
    (listing (.str name) values).categories = [.unnamedEnum] := by
  simp only [enumTypes, List.mem_cons, List.not_mem_nil, or_false] at listed
  rcases listed with rfl | rfl | rfl | rfl <;> rfl

theorem categories_listing_types : (listing (.arr types) values).categories = [.union] := rfl

theorem form_listing_name (listed : name ∈ enumTypes) : (listing (.str name) values).form =
    some ((listing (.str name) values).collectionForm .union
      (values.map fun v => .schema (.bare v))) := by
  have given : (listing (.str name) values).enumValues? = some values := by
    cases values <;> rfl
  rw [form_of_single (categories_listing_name listed), formIn, given]
  rfl

theorem form_listing_names (names : List String) (values : List Json) :
    (listing (.arr (names.map .str)) values).form =
      some ((listing (.arr (names.map .str)) values).collectionForm .union
        (names.map fun name => .whole (listing (.str name) values))) := by
  rw [form_of_single categories_listing_types, formIn]
  simp only [typeList, listing, enumeration, List.map_map]
  rfl

end Node

theorem Params.Matches.value_eq {α β : Type} {R : α → β → Prop} {p : Params α}
    (agree : p.Matches Eq R (.value v)) : p = .value v := by
  cases agree with
  | value same => rw [same]

namespace Builder

/-- What an enumeration of one type lists: null if it is the type of nulls, and any value if it is
another one. -/
def Listed (values : List Json) (v : Json) (name : String) : Prop :=
  if name = "null" then v = .null else v ∈ values

section Lists

variable (steps : ∀ t x, b.Stands g t x → ∃ form, g.form x = some form ∧
  (b.types.node t).form.Matches Eq (b.Stands g) form)
include steps

theorem lists_bare {w : Json} (stands : b.Stands g t (.schema (.bare w))) :
    b.types.Lists t v ↔ v = w := by
  obtain ⟨form, made, agree⟩ := steps t _ stands
  cases made
  exact TypeGraph.lists_literal agree.kind agree.params.value_eq

/-- An enumeration of one type is a union of literals, or the type of nulls. -/
theorem lists_named (known : name = "null" ∨ name ∈ Node.enumTypes)
    (same : g.form x = (Node.listing (.str name) values).form) (stands : b.Stands g t x) :
    b.types.Lists t v ↔ Listed values v name := by
  obtain ⟨form, made, agree⟩ := steps t x stands
  rw [same] at made
  rcases known with rfl | listed
  · cases made
    rw [Listed, if_pos rfl]
    exact TypeGraph.lists_null agree.kind
  · rw [Node.form_listing_name listed] at made
    cases made
    have notNull : name ≠ "null" := by
      rintro rfl
      revert listed
      decide
    have union : b.types.Lists t v ↔ ∃ w ∈ values, v = w :=
      TypeGraph.lists_union_of_matches rfl rfl agree fun _ _ _ stands => lists_bare steps stands
    rw [union, Listed, if_neg notNull]
    simp

/-- An enumeration lists what its copies for each of its types list. -/
theorem lists_listing (known : ∀ name ∈ names, name = "null" ∨ name ∈ Node.enumTypes)
    (same : g.form x = (Node.listing (.ofNames names) values).form) (stands : b.Stands g t x) :
    b.types.Lists t v ↔ ∃ name ∈ names, Listed values v name := by
  by_cases single : ∃ name, names = [name]
  · obtain ⟨name, rfl⟩ := single
    rw [lists_named steps (known name List.mem_cons_self) same stands]
    simp
  · have several : Json.ofNames names = .arr (names.map .str) := by
      unfold Json.ofNames
      split
      · exact absurd ⟨_, rfl⟩ single
      · rfl
    obtain ⟨form, made, agree⟩ := steps t x stands
    rw [same, several, Node.form_listing_names] at made
    cases made
    exact TypeGraph.lists_union_of_matches rfl rfl agree fun _ name listed stands =>
      lists_named steps (known name listed) rfl stands

end Lists

theorem any_isNull : values.any Json.isNull = true ↔ .null ∈ values := by
  rw [List.any_eq_true]
  constructor
  · rintro ⟨v, listed, null⟩
    cases v with
    | null => exact listed
    | _ => cases null
  · exact fun listed => ⟨.null, listed, rfl⟩

/-- What the types that are left say of a value: that it is one of those of the enumeration, if any
of them is another one than that of nulls, or that it is null, if that one is left. -/
theorem listed_typesLeft :
    (∃ name ∈ Rule.typesLeft names (values.any Json.isNull), Listed values v name) ↔
      (v ∈ values ∧ ∃ name ∈ names, name ≠ "null") ∨
        (v = .null ∧ .null ∉ values ∧ "null" ∈ names) := by
  simp only [Rule.mem_typesLeft, any_isNull]
  constructor
  · rintro ⟨name, ⟨declared, dropped⟩, listed⟩
    by_cases null : name = "null"
    · rw [Listed, if_pos null] at listed
      exact .inr ⟨listed, fun given => dropped given null, null ▸ declared⟩
    · rw [Listed, if_neg null] at listed
      exact .inl ⟨listed, name, declared, null⟩
  · rintro (⟨given, name, declared, other⟩ | ⟨rfl, absent, declared⟩)
    · refine ⟨name, ⟨declared, fun _ => other⟩, ?_⟩
      rwa [Listed, if_neg other]
    · exact ⟨"null", ⟨declared, fun given => absurd given absent⟩, rfl⟩

end Builder

namespace Build

variable {d : Document}

theorem compile_eq_typeOf (root : d.root = .obj fields)
    (enumerates : Enumerates fields names values) (options : Options) (fileName : Option String) :
    compile d options ({ fileName } : Builder) = typeOf (.node 0) none (.fresh (.alone (.listing
      (.ofNames (Rule.typesLeft names (values.any Json.isNull))) values)) .empty fileName) := by
  have accepted := Document.ingest_enumeration root enumerates.only
  rw [enumerates.type, Option.getD_some] at accepted
  have normalized :=
    Graph.normalize_alone (Rule.steady_enumeration enumerates options) fileName
  rw [compile_ingested root accepted, compileNode_fresh, normalized]
  rfl

/-- The type of an enumeration lists just its values, unless no type but that of nulls is declared,
and null, if it is declared and not among the values. So the values of the declared types are all
listed, except for a null where nothing but nulls is declared. -/
theorem compile_enumeration (root : d.root = .obj fields)
    (enumerates : Enumerates fields names values) (options : Options)
    (fileName : Option String) :
    ∃ t later, compile d options ({ fileName } : Builder) = .ok t later ∧
      (∀ v, later.types.Lists t v ↔ (v ∈ values ∧ ∃ name ∈ names, name ≠ "null") ∨
        (v = .null ∧ .null ∉ values ∧ "null" ∈ names)) ∧
      ∀ v ∈ values, ∀ name ∈ names, defaultFits (.str name) v = true →
        (later.types.Lists t v ↔ ¬ (v = .null ∧ ∀ name ∈ names, name = "null")) := by
  rw [compile_eq_typeOf root enumerates]
  generalize left : Rule.typesLeft names (values.any Json.isNull) = kept
  have named : ∀ name ∈ kept, name = "null" ∨ name ∈ Node.enumTypes := by
    intro name listed
    rw [← left] at listed
    exact enumerates.named name (Rule.mem_typesLeft.mp listed).1
  have closed : Graph.Closed (.alone (.listing (.ofNames kept) values)) :=
    Graph.forall_alone (P := fun n => ∀ s ∈ n.children, s.Below 1) nofun
  have own : Node.Declared (.listing (.ofNames kept) values) := {
    type := namesTypes_ofNames kept
    title := .inl rfl
    id := .inl rfl
    enum := .inr (.inl rfl)
    tsEnumNames := .inl rfl
    minItems := .inl rfl }
  have plain : (Node.listing (.ofNames kept) values).ref.isNull = true ∧
      (Node.listing (.ofNames kept) values).tsEnumNames.isNull = true := ⟨rfl, rfl⟩
  obtain ⟨t, later, run⟩ := typeOf_ok closed (Graph.forall_alone own)
    (Graph.forall_alone (P := fun n => n.ref.isNull = true ∧ n.tsEnumNames.isNull = true) plain)
    Nat.one_pos .empty fileName none
  have below : Subschema.Below 1 (.node 0) := Nat.one_pos
  obtain ⟨continues, stands⟩ := stands_typeOf closed below run
  have lists : ∀ v, later.types.Lists t v ↔ (v ∈ values ∧ ∃ name ∈ names, name ≠ "null") ∨
      (v = .null ∧ .null ∉ values ∧ "null" ∈ names) := by
    intro v
    rw [← Builder.listed_typesLeft, left]
    exact Builder.lists_listing
      (fun _ _ h => Builder.stands_step continues.sound continues.all_complete h) named rfl stands
  refine ⟨t, later, run, lists, fun v given name declared fits => ?_⟩
  rw [lists]
  constructor
  · rintro (⟨_, other, declared, differs⟩ | ⟨rfl, absent, _⟩) ⟨_, nulls⟩
    · exact differs (nulls other declared)
    · exact absent given
  · intro fine
    refine .inl ⟨given, ?_⟩
    by_contra none
    push Not at none
    refine fine ⟨?_, none⟩
    rw [none name declared] at fits
    cases v with
    | null => rfl
    | _ => cases fits

/-- An enumeration with a null, of several types. -/
def nullable : Document where
  root := .obj [("enum", .arr [.str "a", .null, .int 1]),
    ("type", .arr [.str "string", .str "null", .str "integer"])]

theorem compile_nullable : ∃ t later,
    compile nullable {} ({ fileName := some "t.json" } : Builder) = .ok t later ∧
      later.types.Lists t (.str "a") ∧ later.types.Lists t .null ∧ later.types.Lists t (.int 1) ∧
      ¬ later.types.Lists t (.int 2) := by
  have enumerates : Enumerates [("enum", .arr [.str "a", .null, .int 1]),
      ("type", .arr [.str "string", .str "null", .str "integer"])]
      ["string", "null", "integer"] [.str "a", .null, .int 1] := {
    only := by simp [OnlyEnumerates]
    type := rfl
    named := by decide
    values := .inl ⟨rfl, rfl⟩ }
  obtain ⟨t, later, run, lists, _⟩ :=
    compile_enumeration (d := nullable) rfl enumerates {} (some "t.json")
  exact ⟨t, later, run, by simp [lists], by simp [lists], by simp [lists], by simp [lists]⟩

/-- An enumeration of nothing but a null, which is what it is declared to be. -/
def onlyNull : Document where
  root := .obj [("type", .arr [.str "null"]), ("enum", .arr [.null])]

/-- No type is left for the null, so the union of the types has no members. -/
theorem compile_onlyNull :
    Enumerates [("type", .arr [.str "null"]), ("enum", .arr [.null])] ["null"] [.null] ∧
    defaultFits (.str "null") .null = true ∧ ∃ t later,
      compile onlyNull {} ({ fileName := some "t.json" } : Builder) = .ok t later ∧
        ∀ v, ¬ later.types.Lists t v := by
  have enumerates : Enumerates [("type", .arr [.str "null"]), ("enum", .arr [.null])] ["null"]
      [.null] := {
    only := by simp [OnlyEnumerates]
    type := rfl
    named := by decide
    values := .inl ⟨rfl, rfl⟩ }
  obtain ⟨t, later, run, empty⟩ := exists_of_endsIn (show endsIn
    (fun t later => decide ((later.types.node t).kind = some .union ∧
      (later.types.node t).params.types = []))
    (compile onlyNull {} ({ fileName := some "t.json" } : Builder)) = true by decide +kernel)
  obtain ⟨union, none⟩ := of_decide_eq_true empty
  refine ⟨enumerates, rfl, t, later, run, fun v listed => ?_⟩
  rw [TypeGraph.lists_union union, none] at listed
  obtain ⟨u, member, _⟩ := listed
  cases member

end Build
end LinkedSchema
