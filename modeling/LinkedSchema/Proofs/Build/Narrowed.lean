import LinkedSchema.Proofs.Build.Defaultless
import LinkedSchema.Proofs.Build.Tuples
import LinkedSchema.Proofs.Normalize.Required
/-! Unions of several types. An object of several types becomes a union with a member for each of
them, whatever its default is. -/
namespace LinkedSchema

variable {d : Document} {g g' : Graph} {root : NodeId} {n m : Node} {t u : TypeId}
  {category : Category} {options : Options} {fileName : Option String} {fields : Entries Json}
  {later : Builder} {names : List String} {name : String} {types : List Json}

/-- The names of types that schemas may have. -/
def typeNames : List String :=
  ["array", "boolean", "integer", "null", "number", "object", "string"]

/-- The kinds that the types of nodes with a type of that name are of. -/
def kindsOf (name : String) : List Kind :=
  match name with
  | "array" => [.array, .tuple]
  | "boolean" => [.boolean]
  | "integer" | "number" => [.number]
  | "null" => [.null]
  | "object" => [.interface]
  | "string" => [.string]
  | _ => []

/-- The fields of an object of several types that are all that it is: no other keyword makes
anything else of it. -/
structure SplitFields (names : List String) (fields : Entries Json) : Prop where
  type : fields.lookup "type" = some (.arr (names.map .str))
  several : 2 ≤ names.length
  known : ∀ name ∈ names, name ∈ typeNames
  absent : ∀ keyword ∈ ["allOf", "anyOf", "oneOf", "const"], fields.lookup keyword = none
  unset : ∀ keyword ∈ ["enum", "tsType", "$ref"], ((fields.lookup keyword).getD .null).isNull
  nameless : (∀ keyword ∈ ["id", "$id"], ((fields.lookup keyword).getD .null).isNull) ∨
    ∀ keyword ∈ ["properties", "patternProperties"], fields.lookup keyword = none

namespace Node

/-- A node of several types that no other keyword makes anything else of. -/
structure Splits (types : List Json) (n : Node) : Prop extends Plural types n where
  tsType : n.tsType = .null
  ref : n.ref = .null
  allOf : n.allOf = none
  anyOf : n.anyOf = none
  oneOf : n.oneOf = none
  nameless : n.id = .null ∧ n.legacyId = .null ∨ n.properties = none ∧ n.patternProperties = none

theorem splits_of_mirrors {made : NodeId → Place → Prop} {p : Place}
    (mirrors : d.Mirrors made p fields n) (splits : SplitFields names fields) :
    n.Splits (names.map .str) := by
  have unset {v : Json} {keyword : String} (same : v = (fields.lookup keyword).getD .null)
      (null : ((fields.lookup keyword).getD .null).isNull) : v = .null :=
    same.trans (Json.isNull_iff.mp null)
  have missing {α : Type} {keyword : String} {x : Option α}
      {rel : (Slot → Subschema → Prop) → String → Json → α → Prop}
      (reads : d.Reads made p fields keyword rel x) (absent : fields.lookup keyword = none) :
      x = none := by
    unfold Document.Reads at reads
    rw [absent] at reads
    cases reads
    rfl
  have type : n.type = (fields.lookup "type").getD .null :=
    mirrors.plain ("type", n.type) (by simp [plainKeywords])
  have enum := mirrors.plain ("enum", n.enum) (by simp [plainKeywords])
  have tsType := mirrors.plain ("tsType", n.tsType) (by simp [plainKeywords])
  have ref := mirrors.plain ("$ref", n.ref) (by simp [plainKeywords])
  have ownId := mirrors.plain ("$id", n.id) (by simp [plainKeywords])
  have legacyId := mirrors.plain ("id", n.legacyId) (by simp [plainKeywords])
  exact {
    type := by rw [type, splits.type, Option.getD_some]
    several := by simpa using splits.several
    const := mirrors.const.trans (splits.absent "const" (by simp))
    enum := unset enum (splits.unset "enum" (by simp))
    tsType := unset tsType (splits.unset "tsType" (by simp))
    ref := unset ref (splits.unset "$ref" (by simp))
    allOf := missing mirrors.allOf (splits.absent "allOf" (by simp))
    anyOf := missing mirrors.anyOf (splits.absent "anyOf" (by simp))
    oneOf := missing mirrors.oneOf (splits.absent "oneOf" (by simp))
    nameless := splits.nameless.imp
      (fun null => ⟨unset ownId (null "$id" (by simp)), unset legacyId (null "id" (by simp))⟩)
      fun absent => ⟨missing mirrors.properties (absent "properties" (by simp)),
        missing mirrors.patternProperties (absent "patternProperties" (by simp))⟩ }

theorem isNull_requiredNames (n : Node) : n.requiredNames.isNull = false := by
  unfold requiredNames
  split
  · rfl
  · rfl
  · rename_i given _
    cases required : n.required with
    | null => exact absurd required given
    | _ => rfl

/-- A pass leaves such a node so, and lists what it requires if it is an object too. -/
theorem splits_of_pass (splits : n.Splits types) (made : Rule.pass Rule.all options n = .ok m) :
    m.Splits types ∧ (m.isObjectLike = true → m.required.isNull = false) := by
  have plural := Rule.plural_of_pass (fun _ listed => listed) splits.toPlural made
  have required := Rule.pass_required made
  obtain ⟨id, legacyId, description, minItems, maxItems, items, additionalItems, bases, enum, move,
    rfl⟩ := Rule.pass_writes made
  obtain ⟨type, names, additional, defaults, _⟩ := Rule.withDefaults_spec n
  rw [defaults] at move plural ⊢
  rw [defaults] at required
  refine ⟨{ plural with
    tsType := splits.tsType
    ref := splits.ref
    allOf := splits.allOf
    anyOf := splits.anyOf
    oneOf := splits.oneOf
    nameless := splits.nameless.imp_left fun ⟨noId, noLegacyId⟩ => ?_ }, fun object => ?_⟩
  · have still : Rule.moveLegacyId
        { n with type, required := names, additionalProperties := additional } =
        .ok { n with type, required := names, additionalProperties := additional } :=
      if_neg (by simp [noLegacyId, Json.truthy])
    have same := Except.ok.inj (still.symm.trans move)
    exact ⟨(congrArg Node.id same).symm.trans noId,
      (congrArg Node.legacyId same).symm.trans noLegacyId⟩
  · rw [required object]
    exact n.isNull_requiredNames

/-- The category of a node of the type of a name. -/
def categoryOf (n : Node) (name : String) : Category :=
  match name with
  | "array" => if n.items.isSome then .typedArray else .untypedArray
  | "boolean" => .boolean
  | "integer" | "number" => .number
  | "null" => .null
  | "string" => .string
  | _ => .unnamedSchema

theorem categoryOf_ne_namedEnum (n : Node) (name : String) : n.categoryOf name ≠ .namedEnum := by
  unfold categoryOf
  split
  · split <;> decide
  all_goals decide

/-- A node of the one type of a name that no other keyword makes anything else of. -/
structure Fixed (name : String) (n : Node) : Prop where
  type : n.type = .str name
  id : n.id = .null
  enum : n.enum = .null
  tsType : n.tsType = .null
  ref : n.ref = .null
  allOf : n.allOf = none
  anyOf : n.anyOf = none
  oneOf : n.oneOf = none
  mute : n.Mute
  required : name = "object" → n.required.isNull = false

/-- The copy of such a node for one of its types. -/
theorem fixed_ofType (splits : n.Splits types)
    (required : n.isObjectLike = true → n.required.isNull = false) (listed : .str name ∈ types) :
    (n.ofType (.str name)).Fixed name where
  type := rfl
  id := rfl
  enum := splits.enum
  tsType := splits.tsType
  ref := splits.ref
  allOf := splits.allOf
  anyOf := splits.anyOf
  oneOf := splits.oneOf
  mute := n.mute_ofType _
  required := by
    rintro rfl
    have typed : n.hasType "object" = true := by
      unfold hasType
      rw [splits.type]
      exact List.any_eq_true.mpr ⟨_, listed, rfl⟩
    exact required (by simp [isObjectLike, typed])

/-- Such a node is of no other category. -/
theorem categories_of_fixed (fixed : n.Fixed name) (known : name ∈ typeNames) :
    n.categories = [n.categoryOf name] := by
  have boolean := isScalar_of_mute fixed.mute Build.isStr_of_bool
  have number := isScalar_of_mute fixed.mute Build.isStr_of_number
  have string := isScalar_of_mute fixed.mute Build.isStr_of_text
  have plain : n.isPlainObject = false := by
    by_cases record : name = "object"
    · simp [isPlainObject, fixed.required record]
    · simp [isPlainObject, fixed.type, Json.isStr, record]
  simp only [typeNames, List.mem_cons, List.not_mem_nil, or_false] at known
  rcases known with rfl | rfl | rfl | rfl | rfl | rfl | rfl <;> cases given : n.items <;>
    simp [categories, Category.combining, Category.holds, boolean, number, string, plain, given,
      fixed.type, fixed.id, fixed.enum, fixed.tsType, fixed.ref, fixed.allOf, fixed.anyOf,
      fixed.oneOf, isEmpty, plainKeywords, isUnnamedEnum, categoryOf, Json.isNull, Json.isStr,
      Json.isArr, Json.truthy]

/-- The forms of arrays of either category. -/
theorem kind_of_array {form : Form Subject} (array : category.IsArray)
    (made : n.formIn category = some form) : ∃ kind ∈ kindsOf "array", form.kind = some kind := by
  rcases array with rfl | rfl
  · obtain rfl : n.typedArrayForm = form := Option.some.inj made
    unfold typedArrayForm
    split
    · exact ⟨.tuple, by decide, rfl⟩
    · exact ⟨.array, by decide, rfl⟩
    · exact ⟨.array, by decide, rfl⟩
  · obtain ⟨places, _, rfl⟩ := Option.map_eq_some_iff.mp made
    cases places with
    | some places => exact ⟨.tuple, by decide, rfl⟩
    | none => exact ⟨.array, by decide, rfl⟩

/-- What is made in the category for the type of a name is of a kind for that name. -/
theorem kind_of_categoryOf {form : Form Subject} (known : name ∈ typeNames)
    (made : n.formIn (n.categoryOf name) = some form) :
    ∃ kind ∈ kindsOf name, form.kind = some kind := by
  simp only [typeNames, List.mem_cons, List.not_mem_nil, or_false] at known
  rcases known with rfl | others
  · refine kind_of_array ?_ made
    show (if n.items.isSome then Category.typedArray else .untypedArray).IsArray
    split
    · exact .inl rfl
    · exact .inr rfl
  · rcases others with rfl | rfl | rfl | rfl | rfl | rfl <;>
      exact ⟨_, List.mem_cons_self, (congrArg Form.kind (Option.some.inj made)).symm⟩

/-- Such a node is a union and nothing else. -/
theorem categories_of_splits (splits : n.Splits types) : n.categories = [.union] := by
  rcases splits.nameless with ⟨id, _⟩ | ⟨properties, patterns⟩
  all_goals
    simp [categories, Category.combining, Category.holds, isScalar, isCompound, isEmpty,
      plainKeywords, isPlainObject, isUnnamedEnum, splits.type, splits.enum, splits.tsType,
      splits.ref, splits.allOf, splits.anyOf, splits.oneOf, Json.isNull, Json.isStr, Json.isArr,
      Json.truthy, *]

theorem form_of_splits (splits : n.Splits types) : n.form =
    some (n.collectionForm .union (types.map fun type => .whole (n.ofType type))) := by
  have listed : n.typeList = types := by
    unfold typeList
    rw [splits.type]
  rw [form_of_single (categories_of_splits splits), formIn, listed]

end Node

namespace Document

/-- What the root of an ingested document mirrors, and no other node is without a parent. -/
theorem root_of_ingest {start : Place} (accepted : d.ingest .empty = .ok root g)
    (starts : d.start? = some start) (found : d.fieldsAt start = some fields) :
    (∃ made, d.Mirrors made start fields (g.node root)) ∧ (g.node root).parent = none ∧
      ∀ i < g.size, (g.node i).parent = none → i = root := by
  have ends := d.ingest_ends .empty
  rw [accepted] at ends
  obtain ⟨start', met, starts', depicted⟩ := ends
  cases starts.symm.trans starts'
  have shift (k : Nat) : Graph.empty.size + k = k := Nat.zero_add k
  have first : root = 0 := depicted.first
  obtain ⟨fields', found', mirrors⟩ := depicted.mirrors 0 _ depicted.search.head
  cases found.symm.trans found'
  rw [shift, ← first] at mirrors
  refine ⟨⟨_, mirrors⟩, depicted.top, fun i inside top => ?_⟩
  cases i with
  | zero => exact first.symm
  | succ k =>
    have size : g.size = met.length := depicted.size.trans (shift _)
    obtain ⟨_, _, _, _, _, parent⟩ :=
      depicted.parents k _ (List.getElem?_eq_getElem (size ▸ inside))
    rw [shift] at parent
    cases top.symm.trans parent

theorem object_of_start {start : Place} (starts : d.start? = some start) :
    ∃ fields, d.root = .obj fields := by
  unfold start? stands? at starts
  cases object : d.root with
  | obj fields => exact ⟨fields, rfl⟩
  | _ =>
    rw [object] at starts
    cases starts

end Document

theorem Params.Matches.exists_types {α β : Type} {same : Json → Json → Prop} {R : α → β → Prop}
    {p : Params α} {ys : List β} (h : p.Matches same R (.many (ys.map .type))) :
    ∃ xs, p = .many (xs.map .type) ∧ List.Forall₂ R xs ys := by
  cases h with
  | @many parts _ all =>
    rw [List.forall₂_map_right_iff] at all
    induction all with
    | nil => exact ⟨[], rfl, .nil⟩
    | @cons part y _ _ head _ ih =>
      obtain ⟨xs, same, related⟩ := ih
      cases head with
      | @type x _ here =>
        exact ⟨x :: xs, congrArg (Params.many <| .type x :: ·) (Params.many.inj same),
          .cons here related⟩

namespace Build

/-- The type is of a kind for the name of a type, and has no name of its own. -/
def Narrowed (later : Builder) (name : String) (u : TypeId) : Prop :=
  (∃ kind ∈ kindsOf name, (later.types.node u).kind = some kind) ∧
    (later.types.node u).standaloneName = none

/-- A copy that is fixed to the type of a name is made of a kind for that name. Copies are given no
names. -/
theorem narrowed_of_stands (compiled : Compiled g' root t later) (fixed : n.Fixed name)
    (known : name ∈ typeNames)
    (copy : ∀ i < g'.size, (g'.node i).type = .str name → (g'.node i).parent ≠ n.parent)
    (stands : later.Stands g' u (.whole n)) : Narrowed later name u := by
  obtain ⟨filed, sound, complete, _⟩ := compiled
  have only := Node.categories_of_fixed fixed known
  obtain ⟨form, made, agree⟩ := Builder.stands_step sound complete stands
  have made : n.form = some form := made
  rw [Node.form_of_single only] at made
  obtain ⟨kind, among, same⟩ := Node.kind_of_categoryOf known made
  refine ⟨⟨kind, among, agree.kind.trans same⟩, ?_⟩
  obtain ⟨i, ⟨_, _, entry⟩, similar⟩ := stands
  have content : later.schemas.node i = n := by
    rcases similar with same | ⟨type, same, _, number⟩
    · exact same
    · have named : .str name = type := fixed.type.symm.trans (congrArg Node.type same)
      rw [← named] at number
      cases number
  refine filed.anonymous _ entry (Nat.le_of_not_lt fun old => ?_) ?_
  · have kept : n = g'.node i := content.symm.trans (filed.copies.kept i old)
    exact copy i old (kept ▸ fixed.type) (kept ▸ rfl)
  · rw [content]
    simp only [Node.slot, only]
    exact n.categoryOf_ne_namedEnum name

/-- The type of an object of several types is a union with a member for each of them, in order. -/
theorem members_of_splits {start : Place} (starts : d.start? = some start)
    (found : d.fieldsAt start = some fields) (splits : SplitFields names fields)
    (run : compile d options ({ fileName } : Builder) = .ok t later) :
    (later.types.node t).kind = some .union ∧
      ∃ members, (later.types.node t).params = .many (members.map .type) ∧
        List.Forall₂ (Narrowed later) names members := by
  obtain ⟨_, object⟩ := Document.object_of_start starts
  obtain ⟨root, g, g', accepted, normalized, inside, _, compiled⟩ := exists_compiled object run
  obtain ⟨⟨_, mirrors⟩, top, others⟩ := Document.root_of_ingest accepted starts found
  obtain ⟨size, passed, _⟩ := Graph.normalize_local normalized
  have parents (i : NodeId) : (g'.node i).parent = (g.node i).parent :=
    (Graph.applyRules_keeps Rule.all_blind Rule.all_shrink normalized i).1
  obtain ⟨split, required⟩ :=
    Node.splits_of_pass (Node.splits_of_mirrors mirrors splits) (passed root ⟨inside, .refl⟩).2
  have copy (name : String) (i : NodeId) (old : i < g'.size)
      (type : (g'.node i).type = .str name) : (g'.node i).parent ≠ (g'.node root).parent := by
    intro same
    rw [parents, parents, top] at same
    rw [others i (size ▸ old) same, split.type] at type
    cases type
  obtain ⟨form, made, agree⟩ :=
    Builder.stands_step compiled.sound compiled.complete compiled.stands
  obtain rfl := Option.some.inj ((Node.form_of_splits split).symm.trans made)
  obtain ⟨members, params, each⟩ := Params.Matches.exists_types agree.params
  refine ⟨agree.kind, members, params, ?_⟩
  rw [List.map_map, List.forall₂_map_right_iff] at each
  refine forall₂_imp_mem (List.Forall₂.flip each) fun name listed u standing => ?_
  have fixed := Node.fixed_ofType split required (List.mem_map_of_mem listed)
  exact narrowed_of_stands compiled fixed (splits.known name listed) (copy name) standing

/-- An object of several types that no other keyword makes anything else of is compiled to a union.
It has a member for each of the types, in order, of the kind for the type and without a name. Other
defaults of objects of several types lead to the same types, or both compilations fail. -/
theorem compile_narrowed (options : Options) (fileName : Option String) {start : Place}
    (starts : d.start? = some start) (found : d.fieldsAt start = some fields)
    (splits : SplitFields names fields) :
    (∀ t later, compile d options ({ fileName } : Builder) = .ok t later →
      (later.types.node t).kind = some .union ∧
      ∃ members, (later.types.node t).params = .many (members.map .type) ∧
        List.Forall₂ (Narrowed later) names members) ∧
    ∀ e : Document, Omission.defaultless.document d = Omission.defaultless.document e →
      (∃ t b c, compile d options ({ fileName } : Builder) = .ok t b ∧
        compile e options ({ fileName } : Builder) = .ok t c ∧
        ∃ json, b.types.toJson t = .ok json ∧ c.types.toJson t = .ok json) ∨
      ∃ f f' b c, compile d options ({ fileName } : Builder) = .error f b ∧
        compile e options ({ fileName } : Builder) = .error f' c := by
  refine ⟨fun t later run => members_of_splits starts found splits run, fun e same => ?_⟩
  rcases compile_defaultless options fileName same with ⟨t, b, c, here, there, types⟩ | failed
  · obtain ⟨_, object⟩ := Document.object_of_start starts
    obtain ⟨_, _, _, _, _, _, _, compiled⟩ := exists_compiled object here
    obtain ⟨json, exported⟩ := TypeGraph.toJson_ok
      (Builder.filled_of_stands compiled.sound compiled.complete compiled.stands)
    exact .inl ⟨t, b, c, here, there, json, exported, types ▸ exported⟩
  · exact .inr failed

/-- A tally is a list of at least two tallies, a count, the name of one or a record of two. -/
def tally (default : Json) : Document where
  root := .obj [("$link", .str "tally")]
  parts := [("tally", .obj [("title", .str "Tally"),
    ("type", .arr [.str "array", .str "integer", .str "string", .str "object"]),
    ("items", .obj [("$link", .str "tally")]), ("minItems", .int 2),
    ("properties", .obj [("left", .obj [("$link", .str "tally")]),
      ("right", .obj [("$link", .str "tally")])]),
    ("default", default)])]

/-- A tally that is a count if nothing else is said, and one that is a list. -/
theorem compile_tally : ∃ t b c json members,
    compile (tally (.int 0)) {} ({ fileName := some "t.json" } : Builder) = .ok t b ∧
    (b.types.node t).kind = some .union ∧
    (b.types.node t).params = .many (members.map .type) ∧
    List.Forall₂ (Narrowed b) ["array", "integer", "string", "object"] members ∧
    compile (tally (.arr [])) {} ({ fileName := some "t.json" } : Builder) = .ok t c ∧
    b.types.toJson t = .ok json ∧ c.types.toJson t = .ok json := by
  obtain ⟨t, b, run⟩ := exists_of_succeeds (show succeeds (compile (tally (.int 0)) {}
    ({ fileName := some "t.json" } : Builder)) = true by decide +kernel)
  obtain ⟨fields, found, splits⟩ : ∃ fields, (tally (.int 0)).fieldsAt ⟨some "tally", []⟩ =
      some fields ∧ SplitFields ["array", "integer", "string", "object"] fields :=
    ⟨_, rfl, rfl, by decide, by decide, by simp, by decide, .inl (by decide)⟩
  have same : Omission.defaultless.document (tally (.int 0)) =
      Omission.defaultless.document (tally (.arr [])) := by
    rfl
  obtain ⟨union, alike⟩ := compile_narrowed {} (some "t.json") (by rfl) found splits
  obtain ⟨kind, members, params, each⟩ := union t b run
  rcases alike _ same with ⟨_, _, c, here, there, json, exports⟩ | ⟨_, _, _, _, here, _⟩
  · cases run.symm.trans here
    exact ⟨t, b, c, json, members, run, kind, params, each, there, exports⟩
  · cases run.symm.trans here

end Build
end LinkedSchema
