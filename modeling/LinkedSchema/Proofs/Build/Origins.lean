import LinkedSchema.Proofs.Build.Bounds
import LinkedSchema.Proofs.Build.Refusals
import LinkedSchema.Proofs.Search
/-! What a build goes through, told from the graph alone: the nodes and the copies that are made of
them, the categories that they are built in, the members that they lead to there, and what is wrong
with them. It is no more than can be searched: `Graph.exists_search`. -/
namespace LinkedSchema

variable {g : Graph} {n : Node} {o : Origin} {category : Category} {i : NodeId}

/-- A node of a graph, or a copy that a build makes: of a node without its name, or of a node of
several types for one of them. -/
inductive Origin where
  | node (i : NodeId)
  | unnamed (o : Origin)
  | ofType (o : Origin) (type : Json)

/-- Where a build may be: at a node, or at a node in one category. -/
inductive Spot where
  | whole (o : Origin)
  | part (o : Origin) (category : Category)

def Graph.content (g : Graph) : Origin → Node
  | .node i => g.node i
  | .unnamed o => (g.content o).unnamed
  | .ofType o type => (g.content o).ofType type

namespace Node

/-- The schemas that a node leads to in a category, in order. -/
def members (n : Node) : Category → List Subschema
  | .allOf => n.allOf.getD []
  | .anyOf => n.anyOf.getD []
  | .oneOf => n.oneOf.getD []
  | .namedSchema | .unnamedSchema =>
    (n.properties.getD []).map (·.2) ++ (n.patternProperties.getD []).map (·.2) ++
      (n.definitions.getD []).map (·.2) ++ n.additionalProperties.toList ++
      (n.bases.map Bases.toList).getD []
  | .typedArray =>
    match n.items with
    | some (.positions items) => items ++ n.additionalItems.toList
    | some (.each item) => [item]
    | none => []
  | _ => []

/-- The names of an enumeration. No list counts as an empty one. -/
def nameList (n : Node) : List Json :=
  match n.tsEnumNames with
  | .arr names => names
  | _ => []

/-- No type can be made of the node in that category: a reference was not resolved, or names were
given to an enumeration that is no list of as many values. -/
def Spoils (n : Node) : Category → Prop
  | .reference => True
  | .namedEnum => ∀ values, n.enum = .arr values → n.nameList.length ≠ values.length
  | _ => False

/-- The fault of a node in a category, if it is at fault there. -/
def faultIn (n : Node) (i : NodeId) (fileName : Option String) : Category → Option Fault
  | .reference =>
    some (.unresolvedReference (if n.ref.truthy then n.ref else .str "") i fileName)
  | .namedEnum =>
    match n.enum with
    | .arr values =>
      if n.nameList.length = values.length then none
      else some (.malformedEnum (.lengths n.nameList.length values.length) i fileName)
    | _ => some (.malformedEnum .notList i fileName)
  | _ => none

end Node

/-- The node that a schema is, to be built as a whole. -/
def Subschema.spots : Subschema → List Spot
  | .node i => [.whole (.node i)]
  | _ => []

namespace Graph

/-- What is built below: a node of one category in that category, a node of several ones in each of
them from its unnamed copy, and in a category the members, or the copies for the types. -/
def next (g : Graph) : Spot → List Spot
  | .whole o =>
    match (g.content o).categories with
    | [category] => [.part o category]
    | categories => categories.map (.part (.unnamed o))
  | .part o .union => (g.content o).typeList.map fun type => .whole (.ofType o type)
  | .part o category => ((g.content o).members category).flatMap Subschema.spots

/-- The spot is one that no type can be made at. -/
def Spoilt (g : Graph) : Spot → Prop
  | .whole _ => False
  | .part o category => (g.content o).Spoils category

end Graph

theorem Node.faultIn_isSome_iff (n : Node) (i : NodeId) (fileName : Option String)
    (category : Category) : (n.faultIn i fileName category).isSome ↔ n.Spoils category := by
  cases category with
  | namedEnum =>
    unfold faultIn Spoils
    cases n.enum with
    | arr values => by_cases same : n.nameList.length = values.length <;> simp [same]
    | _ => simp
  | reference => exact iff_of_true rfl trivial
  | _ => exact iff_of_false nofun False.elim

/-- A fault names the node and the file that it was found in. -/
theorem Node.places_of_faultIn {fileName : Option String} {e : Fault}
    (fault : n.faultIn i fileName category = some e) :
    e.node? = some i ∧ e.fileName = fileName := by
  cases category with
  | reference =>
    cases fault
    exact ⟨rfl, rfl⟩
  | namedEnum =>
    unfold faultIn at fault
    cases given : n.enum with
    | arr values =>
      rw [given] at fault
      by_cases same : n.nameList.length = values.length
      · simp [same] at fault
      · simp only [if_neg same, Option.some.injEq] at fault
        rw [← fault]
        exact ⟨rfl, rfl⟩
    | _ =>
      rw [given] at fault
      cases fault
      exact ⟨rfl, rfl⟩
  | _ => cases fault

theorem Node.members_subset (n : Node) (category : Category) : n.members category ⊆ n.children := by
  intro s listed
  cases category with
  | typedArray =>
    simp only [members] at listed
    split at listed
    · rename_i items found
      rcases List.mem_append.mp listed with item | further
      · simp [children, found, Items.toList, item]
      · simp [children, Option.mem_toList.mp further]
    · rename_i item found
      simp [children, found, Items.toList, List.mem_singleton.mp listed]
    · cases listed
  | allOf => simp [children, show s ∈ n.allOf.getD [] from listed]
  | anyOf => simp [children, show s ∈ n.anyOf.getD [] from listed]
  | oneOf => simp [children, show s ∈ n.oneOf.getD [] from listed]
  | namedSchema =>
    simp only [members, children, List.mem_append] at listed ⊢
    tauto
  | unnamedSchema =>
    simp only [members, children, List.mem_append] at listed ⊢
    tauto
  | _ => cases listed

/-- The node that copies are made of in the end. -/
def Origin.base : Origin → NodeId
  | .node i => i
  | .unnamed o => o.base
  | .ofType o _ => o.base

theorem Graph.children_content (g : Graph) (o : Origin) :
    (g.content o).children = (g.node o.base).children := by
  induction o with
  | node i => rfl
  | unnamed o ih => exact ih
  | ofType o type ih => exact ih

theorem Subschema.mem_spots {s : Subschema} {x : Spot} :
    x ∈ s.spots ↔ ∃ i, s = .node i ∧ x = .whole (.node i) := by
  cases s <;> simp [spots]

namespace Graph

theorem next_of_single (only : (g.content o).categories = [category]) :
    g.next (.whole o) = [.part o category] := by
  simp only [next, only]

theorem next_of_several (several : ∀ category, (g.content o).categories ≠ [category]) :
    g.next (.whole o) = (g.content o).categories.map (.part (.unnamed o)) := by
  simp only [next]

/-- The nodes of a graph and their unnamed copies. -/
def unfixed (g : Graph) : List Origin :=
  (List.range g.size).map .node ++ (List.range g.size).map fun i => .unnamed (.node i)

/-- The copies that are made of them for types. -/
def fixed (g : Graph) : List Origin :=
  g.unfixed.flatMap fun o => (g.content o).typeList.map (.ofType o)

/-- All spots of a build on the graph. -/
def spots (g : Graph) : List Spot :=
  ((List.range g.size).map Origin.node ++ g.fixed).map Spot.whole ++
    (g.unfixed ++ g.fixed ++ g.fixed.map Origin.unnamed).flatMap fun o =>
      Category.all.map (Spot.part o)

theorem mem_unfixed : o ∈ g.unfixed ↔ ∃ i < g.size, o = .node i ∨ o = .unnamed (.node i) := by
  simp only [unfixed, List.mem_append, List.mem_map, List.mem_range]
  constructor
  · rintro (⟨i, inside, rfl⟩ | ⟨i, inside, rfl⟩)
    · exact ⟨i, inside, .inl rfl⟩
    · exact ⟨i, inside, .inr rfl⟩
  · rintro ⟨i, inside, rfl | rfl⟩
    · exact .inl ⟨i, inside, rfl⟩
    · exact .inr ⟨i, inside, rfl⟩

theorem mem_fixed :
    o ∈ g.fixed ↔ ∃ p ∈ g.unfixed, ∃ type ∈ (g.content p).typeList, o = .ofType p type := by
  simp only [fixed, List.mem_flatMap, List.mem_map, eq_comm]

theorem whole_mem_spots : .whole o ∈ g.spots ↔ (∃ i < g.size, o = .node i) ∨ o ∈ g.fixed := by
  simp [spots, eq_comm]

theorem part_mem_spots :
    .part o category ∈ g.spots ↔ o ∈ g.unfixed ∨ o ∈ g.fixed ∨ ∃ p ∈ g.fixed, o = .unnamed p := by
  simp [spots, Category.mem_all, eq_comm]

theorem base_lt (listed : .part o category ∈ g.spots) : o.base < g.size := by
  have plain : ∀ p ∈ g.unfixed, p.base < g.size := by
    intro p listed
    obtain ⟨i, inside, rfl | rfl⟩ := mem_unfixed.mp listed
    · exact inside
    · exact inside
  have copied : ∀ p ∈ g.fixed, p.base < g.size := by
    intro p listed
    obtain ⟨q, source, type, _, rfl⟩ := mem_fixed.mp listed
    exact plain q source
  rcases part_mem_spots.mp listed with here | here | ⟨p, here, rfl⟩
  · exact plain o here
  · exact copied o here
  · exact copied p here

/-- Only nodes and their unnamed copies are of several types. -/
theorem unfixed_of_typeList (names : g.NamesTypes) (listed : .part o category ∈ g.spots)
    {type : Json} (given : type ∈ (g.content o).typeList) : o ∈ g.unfixed := by
  have texts : ∀ p ∈ g.unfixed, ∀ v ∈ (g.content p).typeList, v.isText = true := by
    intro p listed v given
    obtain ⟨i, inside, rfl | rfl⟩ := mem_unfixed.mp listed
    · exact Node.isText_of_mem_typeList (names i inside) given
    · exact Node.isText_of_mem_typeList (names i inside) given
  have single : ∀ p ∈ g.fixed, (g.content p).typeList = [] := by
    intro p listed
    obtain ⟨q, source, v, given, rfl⟩ := mem_fixed.mp listed
    refine Node.typeList_ofType _ ?_
    have text := texts q source v given
    cases v <;> first | rfl | cases text
  rcases part_mem_spots.mp listed with here | here | ⟨p, here, rfl⟩
  · exact here
  · rw [single o here] at given
    cases given
  · have none : (g.content (.unnamed p)).typeList = [] := single p here
    rw [none] at given
    cases given

/-- From the spots of a graph nothing else is reached. -/
theorem next_mem_spots (closed : g.Closed) (names : g.NamesTypes) :
    ∀ x ∈ g.spots, ∀ y ∈ g.next x, y ∈ g.spots := by
  intro x listed y below
  have members : ∀ o category, .part o category ∈ g.spots →
      y ∈ ((g.content o).members category).flatMap Subschema.spots → y ∈ g.spots := by
    intro o category listed below
    obtain ⟨s, member, here⟩ := List.mem_flatMap.mp below
    obtain ⟨i, rfl, rfl⟩ := Subschema.mem_spots.mp here
    have child := Node.members_subset _ _ member
    rw [children_content] at child
    exact whole_mem_spots.mpr (.inl ⟨i, closed _ (base_lt listed) _ child, rfl⟩)
  cases x with
  | whole o =>
    have own : o ∈ g.unfixed ∨ o ∈ g.fixed := by
      refine (whole_mem_spots.mp listed).imp_left ?_
      rintro ⟨i, inside, rfl⟩
      exact mem_unfixed.mpr ⟨i, inside, .inl rfl⟩
    have copy : Origin.unnamed o ∈ g.unfixed ∨ ∃ p ∈ g.fixed, Origin.unnamed o = .unnamed p := by
      refine (whole_mem_spots.mp listed).imp ?_ fun fixed => ⟨o, fixed, rfl⟩
      rintro ⟨i, inside, rfl⟩
      exact mem_unfixed.mpr ⟨i, inside, .inr rfl⟩
    by_cases several : ∀ category, (g.content o).categories ≠ [category]
    · rw [next_of_several several] at below
      obtain ⟨category, _, rfl⟩ := List.mem_map.mp below
      exact part_mem_spots.mpr (copy.imp_right .inr)
    · obtain ⟨category, only⟩ := not_forall_not.mp several
      rw [next_of_single only] at below
      rw [List.mem_singleton.mp below]
      exact part_mem_spots.mpr (own.imp_right .inl)
  | part o category =>
    cases category with
    | union =>
      obtain ⟨type, given, rfl⟩ := List.mem_map.mp below
      have source := unfixed_of_typeList names listed given
      exact whole_mem_spots.mpr (.inr (mem_fixed.mpr ⟨o, source, type, given, rfl⟩))
    | _ => exact members o _ listed below

/-- All that is reached from a node can be searched. -/
theorem exists_search (closed : g.Closed) (names : g.NamesTypes) (inside : i < g.size) :
    ∃ order, DepthFirst g.next id [] [.whole (.node i)] order := by
  apply DepthFirst.exists_of_closed (next_mem_spots closed names)
  intro x listed
  rw [List.mem_singleton.mp listed]
  exact whole_mem_spots.mpr (.inl ⟨i, inside, rfl⟩)

end Graph

/-- Where what a type is made of is built, for a type that is made of a node. -/
def Subject.spots (o : Origin) : Subject → List Spot
  | .schema s => s.spots
  | .whole n => [.whole (.ofType o n.type)]
  | .part _ _ => []

section Forms

variable {form : Form Subject}

theorem spots_schemas (o : Origin) (members : List Subschema) :
    (members.map Subject.schema).flatMap (Subject.spots o) = members.flatMap Subschema.spots :=
  List.flatMap_map ..

theorem spots_typedArray (n : Node) (o : Origin) :
    n.typedArrayForm.references.flatMap (Subject.spots o) =
      (n.members .typedArray).flatMap Subschema.spots := by
  have spread (s : Option Subschema) :
      (Node.spreadSubject s).toList.flatMap (Subject.spots o) =
        s.toList.flatMap Subschema.spots := by
    cases s with
    | none => rfl
    | some s =>
      cases s with
      | bool allowed => cases allowed <;> rfl
      | bare v => rfl
      | node i => rfl
  unfold Node.typedArrayForm Node.members
  cases n.items with
  | none => rfl
  | some items =>
    cases items with
    | each item => exact spots_schemas o [item]
    | positions items =>
      simp only [Node.references_tuple, List.flatMap_append, spots_schemas, spread]

theorem spots_interface (n : Node) (o : Origin) :
    n.interfaceForm.references.flatMap (Subject.spots o) =
      (n.members .unnamedSchema).flatMap Subschema.spots := by
  have patterns : n.patternForms.map (·.type) =
      ((n.patternProperties.getD []).map (·.2)).map Subject.schema := by
    unfold Node.patternForms
    split <;> simp
  have additional : (n.additionalForms.map (·.type)).flatMap (Subject.spots o) =
      n.additionalProperties.toList.flatMap Subschema.spots := by
    unfold Node.additionalForms
    cases n.additionalProperties with
    | none => cases Build.hasSinglePattern n <;> rfl
    | some s =>
      cases s with
      | bool allowed => cases allowed <;> cases Build.hasSinglePattern n <;> rfl
      | bare v => rfl
      | node i => rfl
  have supers : n.superForms.flatMap (Subject.spots o) =
      ((n.bases.map Bases.toList).getD []).flatMap Subschema.spots := by
    unfold Node.superForms
    cases n.bases with
    | none => rfl
    | some bases =>
      cases bases with
      | null => rfl
      | many bases => exact spots_schemas o bases
      | one base =>
        cases base with
        | bool allowed => cases allowed <;> rfl
        | bare v => rfl
        | node i => rfl
  have properties : n.propertyForms.map (·.type) =
      ((n.properties.getD []).map (·.2)).map Subject.schema := by
    simp [Node.propertyForms]
  have definitions : n.definitionForms.map (·.type) =
      ((n.definitions.getD []).map (·.2)).map Subject.schema := by
    simp [Node.definitionForms]
  simp only [Node.references_interfaceForm, Node.members, List.map_append, List.flatMap_append,
    properties, patterns, definitions, additional, supers, spots_schemas]

theorem spots_of_leaves {xs : List Subject} (leaves : ∀ x ∈ xs, x.spots o = []) :
    xs.flatMap (Subject.spots o) = [] :=
  List.flatMap_eq_nil_iff.mpr leaves

theorem spots_untypedArray (made : n.untypedArrayForm = some form) :
    form.references.flatMap (Subject.spots o) = [] := by
  obtain ⟨places, _, rfl⟩ := Option.map_eq_some_iff.mp made
  cases places with
  | none => rfl
  | some places =>
    apply spots_of_leaves
    intro x listed
    simp only [Node.references_tuple, List.mem_append, Option.mem_toList] at listed
    rcases listed with place | spread
    · rw [List.eq_of_mem_replicate place]
      rfl
    · split at spread
      · cases spread
      · cases spread
        rfl

theorem spots_namedEnum (made : n.namedEnumForm = some form) :
    form.references.flatMap (Subject.spots o) = [] := by
  unfold Node.namedEnumForm at made
  split at made
  · obtain ⟨names, _, made⟩ := Option.bind_eq_some_iff.mp made
    split at made
    · cases made
      apply spots_of_leaves
      intro x listed
      obtain ⟨e, _, rfl⟩ : ∃ e ∈ names.zip _, .schema (.bare e.2) = x := by
        simpa [Form.references, Node.bareForm,
          Params.types_choice _ fun v => Subject.schema (.bare v)] using listed
      rfl
    · cases made
  · cases made

/-- What the type of a node is made of in a category is built where the build goes on. -/
theorem spots_of_form (made : (g.content o).formIn category = some form) :
    form.references.flatMap (Subject.spots o) = g.next (.part o category) := by
  cases category with
  | allOf | anyOf | oneOf =>
    cases made
    rw [Node.references_collectionForm]
    exact spots_schemas o _
  | namedSchema | unnamedSchema =>
    cases made
    exact spots_interface _ o
  | typedArray =>
    cases made
    exact spots_typedArray _ o
  | untypedArray => exact spots_untypedArray made
  | namedEnum => exact spots_namedEnum made
  | unnamedEnum =>
    obtain ⟨values, _, rfl⟩ := Option.map_eq_some_iff.mp made
    rw [Node.references_collectionForm]
    apply spots_of_leaves
    intro x listed
    obtain ⟨v, _, rfl⟩ := List.mem_map.mp listed
    rfl
  | union =>
    cases made
    rw [Node.references_collectionForm, List.flatMap_map]
    exact List.map_eq_flatMap.symm
  | reference => cases made
  | _ =>
    cases made
    rfl

end Forms

namespace Node

/-- The fields that decide whether a type can be made are of the types they are declared with. -/
structure Declared (n : Node) : Prop where
  type : n.type.NamesTypes
  title : n.title.isNull ∨ n.title.isText
  id : n.id.isNull ∨ n.id.isText
  enum : n.enum.isNull ∨ n.enum.isArr ∨ n.enum.isObj
  tsEnumNames : n.tsEnumNames.isNull ∨ n.tsEnumNames.isArr
  minItems : n.minItems.isNull ∨ n.minItems.int?.isSome

instance (n : Node) : Decidable n.Declared :=
  decidable_of_iff (n.type.NamesTypes ∧ (n.title.isNull ∨ n.title.isText) ∧
      (n.id.isNull ∨ n.id.isText) ∧ (n.enum.isNull ∨ n.enum.isArr ∨ n.enum.isObj) ∧
      (n.tsEnumNames.isNull ∨ n.tsEnumNames.isArr) ∧ (n.minItems.isNull ∨ n.minItems.int?.isSome))
    ⟨fun ⟨type, title, id, enum, names, lower⟩ => ⟨type, title, id, enum, names, lower⟩,
      fun h => ⟨h.type, h.title, h.id, h.enum, h.tsEnumNames, h.minItems⟩⟩

namespace Declared

theorem unnamed (declared : n.Declared) : n.unnamed.Declared :=
  { declared with title := .inl rfl, id := .inl rfl }

theorem ofType (declared : n.Declared) {type : Json} (listed : type ∈ n.typeList) :
    (n.ofType type).Declared :=
  { declared.unnamed with type := namesTypes_ofType declared.type listed }

theorem nameable (declared : n.Declared) : n.Nameable := by
  have text : ∀ v : Json, v.truthy = true → v.isNull ∨ v.isText → v.isText = true := by
    intro v given kinds
    cases v with
    | null => cases given
    | str s => rfl
    | _ => simp [Json.isNull, Json.isText] at kinds
  intro v source
  unfold nameSource? at source
  split at source
  · rename_i given
    cases source
    exact text _ given declared.title
  · split at source
    · rename_i given
      cases source
      exact text _ given declared.id
    · cases source

theorem enumNames (declared : n.Declared) : n.enumNames? = some n.nameList := by
  unfold enumNames? nameList
  have kinds := declared.tsEnumNames
  generalize n.tsEnumNames = v at kinds ⊢
  cases v with
  | null => rfl
  | arr names => cases names <;> rfl
  | _ => simp [Json.isNull, Json.isArr] at kinds

theorem enumValues (declared : n.Declared) : n.enumValues?.isSome := by
  unfold enumValues?
  have kinds := declared.enum
  generalize n.enum = v at kinds ⊢
  cases v with
  | null => rfl
  | obj entries => rfl
  | arr values => cases values <;> rfl
  | _ => simp [Json.isNull, Json.isArr, Json.isObj] at kinds

theorem places (declared : n.Declared) (upper : Int) :
    (places? upper n.minItems.orZero).isSome := by
  have bound : ∃ x, n.minItems.orZero.number? = some (.int x) ∧
      n.minItems.orZero.int? = some x := by
    have kinds := declared.minItems
    generalize n.minItems = v at kinds ⊢
    cases v with
    | null => exact ⟨0, rfl, rfl⟩
    | bool b => cases b <;> exact ⟨_, rfl, rfl⟩
    | int x =>
      unfold Json.orZero
      split <;> exact ⟨_, rfl, rfl⟩
    | _ => simp [Json.isNull, Json.int?] at kinds
  obtain ⟨x, number, count⟩ := bound
  unfold places?
  rw [number, Option.bind_some]
  split
  · split
    · rw [count]
      rfl
    · rfl
  · rfl

variable {fileName : Option String}

/-- Where no fault is, there is a plan, whatever the name. -/
theorem plan_of_none (declared : n.Declared) (fine : n.faultIn i fileName category = none) :
    ∃ plan, n.plan i fileName category = .ok plan ∧ ∀ name, ∃ form, plan name = .ok form := by
  cases category with
  | namedEnum =>
    unfold faultIn at fine
    unfold plan namedEnumPlan
    rw [declared.enumNames]
    cases given : n.enum with
    | arr values =>
      rw [given] at fine
      by_cases same : n.nameList.length = values.length
      · simp only [listed, Except.bind, if_pos same]
        exact ⟨_, rfl, fun _ => ⟨_, rfl⟩⟩
      · simp [same] at fine
    | _ => simp [given] at fine
  | unnamedEnum =>
    obtain ⟨values, found⟩ := Option.isSome_iff_exists.mp declared.enumValues
    unfold plan
    rw [found]
    exact ⟨_, rfl, fun _ => ⟨_, rfl⟩⟩
  | untypedArray =>
    refine ⟨_, rfl, fun name => ?_⟩
    obtain ⟨places, found⟩ :=
      Option.isSome_iff_exists.mp (declared.places (n.maxItems.int?.getD (-1)))
    unfold untypedArrayPlan
    simp only [found]
    cases places <;> exact ⟨_, rfl⟩
  | reference => cases fine
  | _ => exact ⟨_, rfl, fun _ => ⟨_, rfl⟩⟩

theorem plan_of_some (declared : n.Declared) {e : Fault}
    (fault : n.faultIn i fileName category = some e) :
    n.plan i fileName category = .error e := by
  cases category with
  | namedEnum =>
    unfold faultIn at fault
    unfold plan namedEnumPlan
    rw [declared.enumNames]
    cases given : n.enum with
    | arr values =>
      rw [given] at fault
      by_cases same : n.nameList.length = values.length
      · simp [same] at fault
      · simp only [if_neg same, Option.some.injEq] at fault
        simp only [listed, Except.bind, if_neg same, fault]
        rfl
    | _ =>
      simp only [given, Option.some.injEq] at fault
      simp only [fault]
      rfl
  | reference =>
    cases fault
    rfl
  | _ => cases fault

theorem not_spoils_of_plan (declared : n.Declared)
    {plan : Option String → Except Fault (Form Need)}
    (planned : n.plan i fileName category = .ok plan) : ¬ n.Spoils category := by
  intro spoils
  obtain ⟨e, fault⟩ :=
    Option.isSome_iff_exists.mp ((n.faultIn_isSome_iff i fileName category).mpr spoils)
  cases planned.symm.trans (declared.plan_of_some fault)

/-- Nothing but the fault of the node in the category keeps a type from being prepared. -/
theorem faultIn_of_refused (declared : n.Declared) {e : Fault}
    (cause : n.plan i fileName category = .error e ∨ (¬ n.Nameable ∧ e = .misused .name) ∨
      ∃ plan name, n.plan i fileName category = .ok plan ∧ plan name = .error e) :
    n.faultIn i fileName category = some e := by
  cases fault : n.faultIn i fileName category with
  | some other =>
    have planned := declared.plan_of_some fault
    rcases cause with refused | ⟨nameless, _⟩ | ⟨plan, name, found, _⟩
    · exact congrArg some (Except.error.inj (planned.symm.trans refused))
    · exact (nameless declared.nameable).elim
    · cases planned.symm.trans found
  | none =>
    obtain ⟨plan, planned, all⟩ := declared.plan_of_none fault
    rcases cause with refused | ⟨nameless, _⟩ | ⟨again, name, found, refused⟩
    · cases planned.symm.trans refused
    · exact (nameless declared.nameable).elim
    · cases planned.symm.trans found
      obtain ⟨form, made⟩ := all name
      cases made.symm.trans refused

end Declared
end Node
end LinkedSchema
