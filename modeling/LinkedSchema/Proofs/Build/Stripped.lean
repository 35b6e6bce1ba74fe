import LinkedSchema.Proofs.Build.Likewise
import LinkedSchema.Proofs.Build.Tuples
import LinkedSchema.Proofs.Normalize.Rebounds
/-! Compilations that strip the bounds of arrays. Tuples are made of lists of items only, and no
bound can be told from the types, but for what is said of it in comments. -/
namespace LinkedSchema

variable {d e : Document} {g g' h : Graph} {root i k : NodeId} {n m : Node} {t u : TypeId}
  {category : Category} {options : Options} {fileName : Option String} {x y : Entries Json}
  {fields : Entries Json} {later : Builder}

namespace Omission

/-- The bounds of arrays are left out. -/
def boundless : Omission where
  names := ["minItems", "maxItems"]
  applies fields := (fields.lookup "items").isSome ||
    Node.isArrayLike { type := (fields.lookup "type").getD .null }

theorem boundless_lawful : boundless.Lawful where
  plain name listed := by
    simp only [boundless, List.mem_cons, List.not_mem_nil, or_false] at listed
    rcases listed with rfl | rfl <;> rfl
  apart := by decide
  more fields applies := by
    rcases Bool.or_eq_true_iff.mp applies with items | type
    · exact ⟨"items", by decide, by decide, items⟩
    · refine ⟨"type", by decide, by decide, ?_⟩
      cases found : fields.lookup "type" with
      | some v => rfl
      | none =>
        rw [found] at type
        cases type
  stable x y same := by
    have items := congrArg Option.isSome (same "items" (by decide))
    have type := same "type" (by decide)
    rw [Option.isSome_map, Option.isSome_map] at items
    rw [map_under rfl, map_under rfl] at type
    simp only [boundless, items, type]

end Omission

namespace Node

/-- The same node, or one that describes arrays too and has other bounds. -/
def SameButBounds (n m : Node) : Prop :=
  (∃ minItems maxItems, m = { n with minItems, maxItems }) ∧ (m = n ∨ n.isArrayLike = true)

theorem sameButBounds_equivalence : Equivalence SameButBounds where
  refl n := ⟨⟨n.minItems, n.maxItems, rfl⟩, .inl rfl⟩
  symm := by
    rintro n _ ⟨⟨minItems, maxItems, rfl⟩, array⟩
    exact ⟨⟨n.minItems, n.maxItems, rfl⟩, array.imp_left Eq.symm⟩
  trans := by
    rintro n _ _ ⟨⟨_, _, rfl⟩, first⟩ ⟨⟨minItems, maxItems, rfl⟩, next⟩
    refine ⟨⟨minItems, maxItems, rfl⟩, ?_⟩
    rcases next with same | array
    · exact first.imp_left same.trans
    · exact .inr array

theorem boundless_fits : Ingestion.Fits Omission.boundless SameButBounds where
  equivalence := sameButBounds_equivalence
  node x y parent n same given := by
    have plain (name : String) (noSchema : schemaKeywords.lookup name = none) :=
      Omission.boundless_lawful.plain_eq same noSchema
    have agree (name : String) (noSchema : schemaKeywords.lookup name = none)
        (other : name ∉ ["minItems", "maxItems"]) : y.lookup name = x.lookup name :=
      (plain name noSchema).resolve_right fun omitted => other omitted.1
    have filled := n.filled_agree parent fun name noSchema other =>
      agree name noSchema fun listed => other (List.mem_of_mem_take (i := 2) listed)
    have default : y.lookup "default" = x.lookup "default" := agree "default" rfl (by decide)
    rw [filled, default]
    refine ⟨⟨_, _, rfl⟩, ?_⟩
    cases applies : Omission.boundless.applies x with
    | true =>
      simp only [Omission.boundless, ← given] at applies
      exact .inr (by simpa [isArrayLike, Node.filled, hasType, Bool.or_assoc] using applies)
    | false =>
      left
      have whole (name : String) (noSchema : schemaKeywords.lookup name = none) :
          y.lookup name = x.lookup name :=
        (plain name noSchema).resolve_right fun omitted => by
          have applied := omitted.2
          rw [applies] at applied
          cases applied
      rw [whole "minItems" rfl, whole "maxItems" rfl]
      rfl

/-- Nodes that a build does not tell apart but by their descriptions. -/
def SameButText (n m : Node) : Prop :=
  (∃ description, m = { n with description }) ∧
    (m.description = n.description ∨ n.minItems.isNull = false)

theorem sameButText_kinship : Kinship SameButText fun _ _ => True where
  title := by rintro n _ ⟨⟨_, rfl⟩, _⟩; rfl
  id := by rintro n _ ⟨⟨_, rfl⟩, _⟩; rfl
  deprecated := by rintro n _ ⟨⟨_, rfl⟩, _⟩; rfl
  categories := by
    rintro n _ ⟨⟨description, rfl⟩, same | bounded⟩
    · obtain rfl : description = n.description := same
      rfl
    · have filled (description : Json) : isEmpty { n with description } = false := by
        simp [isEmpty, plainKeywords, bounded]
      have holds : Category.holds { n with description } = Category.holds n := by
        funext category
        cases category with
        | any =>
          have nonempty : n.isEmpty = false := filled n.description
          rw [Category.holds, Category.holds, filled, nonempty]
        | _ => rfl
      unfold categories
      rw [holds]
  plan := by
    rintro n _ i fileName category ⟨⟨_, rfl⟩, _⟩
    cases category <;> rfl
  unnamed := by rintro n _ ⟨⟨_, rfl⟩, _⟩; exact ⟨⟨.null, rfl⟩, .inl rfl⟩
  ofType := by rintro n _ type ⟨⟨_, rfl⟩, _⟩; exact ⟨⟨.null, rfl⟩, .inl rfl⟩
  description _ := trivial
  refl _ := trivial
  image _ _ := trivial

/-- In a category of arrays, a node without bounds makes a tuple of a list of items, and an array of
anything else. -/
theorem formIn_unbounded {form : Form Subject} (array : category.IsArray)
    (holds : category.holds n = true) (made : n.formIn category = some form)
    (least : n.minItems = .int 0) (most : n.maxItems = .null) :
    (∃ items, n.items = some (.positions items) ∧ form.kind = some .tuple ∧
      form.params.count = items.length ∧ form.minItems = .int 0 ∧ form.maxItems = .null) ∨
    (∀ items, n.items ≠ some (.positions items)) ∧ form.kind = some .array := by
  rcases array with rfl | rfl
  · obtain rfl : n.typedArrayForm = form := Option.some.inj made
    unfold typedArrayForm
    cases found : n.items with
    | none => exact .inr ⟨nofun, rfl⟩
    | some items =>
      cases items with
      | each item => exact .inr ⟨nofun, rfl⟩
      | positions items =>
        exact .inl ⟨items, rfl, rfl, by simp [collectionForm, Params.count], least, most⟩
  · have absent : n.items = none := by
      simpa only [Category.holds, Bool.and_eq_true, Option.isNone_iff_eq_none] using
        (Bool.and_eq_true_iff.mp holds).2
    have anything : n.untypedArrayForm =
        some { n.bareForm .array with params := .one (.schema (.bool true)) } := by
      unfold untypedArrayForm
      rw [least, most]
      rfl
    obtain rfl := Option.some.inj (anything.symm.trans made)
    exact .inr ⟨by simp [absent], rfl⟩

end Node

/-- A tuple without bounds, with a place for each of the items. -/
structure TypeNode.IsTupleOf (items : List Json) (n : TypeNode) : Prop where
  kind : n.kind = some .tuple
  count : n.params.count = items.length
  minItems : n.minItems = .int 0
  maxItems : n.maxItems = .null

theorem Represents.of_size {strips : List (NodeId × NodeId)}
    {narrows : List ((NodeId × Json) × NodeId)} {o : Origin} (size : h.size = g.size)
    (represents : Represents g strips narrows o k) : Represents h strips narrows o k := by
  induction represents with
  | node inside => exact .node (size ▸ inside)
  | unnamed _ listed ih => exact .unnamed ih listed
  | ofType _ listed ih => exact .ofType ih listed

/-- A node lists as many items as its object does, or neither lists any. -/
theorem Document.Mirrors.items_list {made : NodeId → Place → Prop} {p : Place}
    (mirrors : d.Mirrors made p fields n) :
    (∃ members items, n.items = some (.positions members) ∧
      fields.lookup "items" = some (.arr items) ∧ members.length = items.length) ∨
    (∀ members, n.items ≠ some (.positions members)) ∧
      ∀ items, fields.lookup "items" ≠ some (.arr items) := by
  have reads := mirrors.items
  unfold Reads at reads
  generalize n.items = items at reads ⊢
  generalize fields.lookup "items" = v at reads ⊢
  cases reads with
  | none => exact .inr ⟨nofun, nofun⟩
  | @some v items reads =>
    cases items with
    | each item =>
      refine .inr ⟨nofun, ?_⟩
      rintro items ⟨⟩
      cases reads.1
    | positions members =>
      cases v with
      | arr items =>
        have listed : List.Forall₂ _ _ members := reads
        refine .inl ⟨members, items, rfl, rfl, ?_⟩
        simpa [Slot.several] using listed.length_eq.symm
      | _ => cases reads

/-- The node of the build is the one that was made of the object at a place of the document, or a
copy of that one. -/
def Document.MadeOf (d : Document) (b : Builder) (k : NodeId) (p : Place) : Prop :=
  ∃ root g start met o, d.ingest .empty = .ok root g ∧ d.start? = some start ∧
    d.Depicted .empty g root start met ∧ Made 0 met (Origin.base o) p ∧ b.Represents g o k

namespace Build

/-- Documents that differ in the bounds of arrays are normalized alike where these are stripped. -/
theorem normalizedAlike_of_bounds (strips : options.stripItemBounds = true) (typed : d.Typed)
    (typed' : e.Typed) (accepted : d.ingest .empty = .ok root g)
    (accepted' : e.ingest .empty = .ok root h) (kindred : g.Kindred Node.SameButBounds h) :
    NormalizedAlike Node.SameButText options fileName root g h := by
  have rebounds : g.Kindred Node.Rebounds h := by
    refine ⟨kindred.size, fun i => ?_⟩
    obtain ⟨⟨minItems, maxItems, same⟩, array⟩ := kindred.node i
    have both : (g.node i).Typed ∧ (h.node i).Typed := by
      by_cases inside : i < g.size
      · exact ⟨typed.of_ingest accepted inside, typed'.of_ingest accepted' (kindred.size ▸ inside)⟩
      · have beyond : g.size ≤ i := Nat.le_of_not_lt inside
        rw [Graph.node_of_le beyond, Graph.node_of_le (kindred.size ▸ beyond)]
        exact ⟨⟨trivial, .inl rfl, .inl rfl, .inl rfl⟩, ⟨trivial, .inl rfl, .inl rfl, .inl rfl⟩⟩
    exact ⟨⟨minItems, maxItems, _, same⟩, both.1, both.2, array⟩
  rcases Graph.normalize_rebounds root fileName strips rebounds with
    ⟨g', h', run, run', same, below⟩ | failed
  · refine .inl ⟨fun i => g'.Reaches root i ∨ g'.size ≤ i, g', h', run, run',
      ⟨same.size, fun i => ?_, fun i fine => ?_, fun i fine s child => ?_, fun i => .inr⟩,
      .inl .refl⟩
    · obtain ⟨_, _, _, rest⟩ := (same.node i).rest
      rw [rest]
      exact ⟨rfl, rfl, rfl, rfl⟩
    · rcases fine with reaches | beyond
      · have told := below i reaches
        refine ⟨told.only, ?_⟩
        rcases told.array with unchanged | array
        · exact .inl (congrArg Node.description unchanged)
        · have normal := Graph.normal_of_normalize (fun _ below => typed.of_ingest accepted below.1)
            run i ⟨Graph.lt_size_of_isArrayLike array, reaches⟩
          rw [(normal.stripped strips array).1]
          exact .inr rfl
      · rw [Graph.node_of_le beyond, Graph.node_of_le (same.size ▸ beyond)]
        exact ⟨⟨_, rfl⟩, .inl rfl⟩
    · cases s with
      | node j =>
        have edge : (g'.node i).LeadsTo j := Node.leadsTo_iff.mpr child
        exact .inl ((fine.resolve_right
          (Nat.not_le.mpr (Graph.lt_size_of_leadsTo edge))).tail edge)
      | _ => trivial
  · exact .inr failed

/-- The type that is made of a node in a category of arrays is a tuple without bounds where the
object that the node was made of lists items, and otherwise an array. -/
theorem unbounded_of_strips (strips : options.stripItemBounds = true) (typed : d.Typed)
    (accepted : d.ingest .empty = .ok root g)
    (normalized : Graph.normalize options fileName root g = .ok () g')
    (compiled : Compiled g' root t later) (listed : ((k, category), u) ∈ later.built)
    (array : category.IsArray) : ∃ p fields, d.MadeOf later k p ∧ d.fieldsAt p = some fields ∧
      ((∃ items, fields.lookup "items" = some (.arr items) ∧
          (later.types.node u).IsTupleOf items) ∨
        (∀ items, fields.lookup "items" ≠ some (.arr items)) ∧
          (later.types.node u).kind = some .array) := by
  obtain ⟨filed, sound, complete, stands⟩ := compiled
  obtain ⟨o, form, represents, reached, describes, holds, made, agree⟩ :=
    filed.exists_array listed (complete _ listed) array
  obtain ⟨size, passed, _⟩ := Graph.normalize_local normalized
  obtain ⟨below, pass⟩ := passed o.base ⟨represents.base_lt, reached⟩
  obtain ⟨start, met, p, fields, starts, depicted, here, _, found, mirrors⟩ :=
    Document.exists_object_of_ingest accepted below.1
  have own : (g.node o.base).Typed := typed.of_ingest accepted below.1
  have source : (g.node o.base).isArrayLike = true :=
    (Rule.resembles_of_pass (fun _ listed => listed) own pass).array.symm.trans describes
  have normal : (g'.node o.base).Normal options :=
    Graph.normal_of_normalize (fun _ below => typed.of_ingest accepted below.1) normalized o.base
      ⟨represents.base_lt, reached⟩
  obtain ⟨least, most⟩ := normal.stripped strips describes
  obtain ⟨items, lower, upper⟩ := g'.content_array o
  have kept : (g'.content o).items = (g.node o.base).items :=
    items.trans (Rule.items_of_strips strips own source pass)
  have count : (later.types.node u).params.count = form.params.count := agree.params.count
  refine ⟨p, fields, ⟨root, g, start, met, o, accepted, starts, depicted, here,
    represents.of_size size.symm⟩, found, ?_⟩
  rcases Node.formIn_unbounded array holds made (lower.trans least) (upper.trans most) with
    ⟨members, listed, kind, places, minItems, maxItems⟩ | ⟨unlisted, kind⟩
  · rcases mirrors.items_list with ⟨members', items, given, read, length⟩ | ⟨unlisted, _⟩
    · cases listed.symm.trans (kept.trans given)
      exact .inl ⟨items, read, agree.kind.trans kind, count.trans (places.trans length),
        agree.minItems.trans minItems, agree.maxItems.trans maxItems⟩
    · exact absurd (kept.symm.trans listed) (unlisted members)
  · rcases mirrors.items_list with ⟨members, _, given, _⟩ | ⟨_, unread⟩
    · exact absurd (kept.trans given) (unlisted members)
    · exact .inr ⟨unread, agree.kind.trans kind⟩

/-- Where bounds are stripped, every tuple is made for a list of items and has a place for each of
them and no bounds, and what else is made in a category of arrays is an array. Documents that differ
in the bounds of arrays are compiled to types that are the same but for comments, or both fail. -/
theorem compile_stripped (d : Document) (options : Options) (fileName : Option String)
    (typed : d.Typed) (strips : options.stripItemBounds = true) :
    (∀ t later, compile d options ({ fileName } : Builder) = .ok t later →
      (∀ u, later.types.Reaches t u → (later.types.node u).kind = some .tuple →
        ∃ k category p fields items, ((k, category), u) ∈ later.built ∧ d.MadeOf later k p ∧
          d.fieldsAt p = some fields ∧ fields.lookup "items" = some (.arr items) ∧
          (later.types.node u).IsTupleOf items) ∧
      ∀ k category u, ((k, category), u) ∈ later.built → category.IsArray →
        ∃ p fields, d.MadeOf later k p ∧ d.fieldsAt p = some fields ∧
          ((∃ items, fields.lookup "items" = some (.arr items) ∧
              (later.types.node u).IsTupleOf items) ∨
            (∀ items, fields.lookup "items" ≠ some (.arr items)) ∧
              (later.types.node u).kind = some .array)) ∧
    ∀ e : Document, e.Typed → Omission.boundless.document d = Omission.boundless.document e →
      Likewise (fun _ _ => True) (compile d options ({ fileName } : Builder))
        (compile e options ({ fileName } : Builder)) := by
  refine ⟨fun t later run => ⟨fun u reached tuple => ?_, fun k category u listed array => ?_⟩,
    fun e typed' same => ?_⟩
  · obtain ⟨fields, object⟩ := (compile_cases run).resolve_right fun none => none.2 u tuple
    obtain ⟨root, g, g', accepted, normalized, _, _, compiled⟩ := exists_compiled object run
    obtain ⟨k, category, listed, array⟩ := Builder.exists_entry_of_tuple compiled.filed
      compiled.sound compiled.complete compiled.stands reached tuple
    obtain ⟨p, fields, source, found, ⟨items, read, made⟩ | ⟨_, kind⟩⟩ :=
      unbounded_of_strips strips typed accepted normalized compiled listed array
    · exact ⟨k, category, p, fields, items, listed, source, found, read, made⟩
    · rw [tuple] at kind
      cases kind
  · obtain ⟨fields, object⟩ := (compile_cases run).resolve_right fun none => by
      rw [none.1] at listed
      cases listed
    obtain ⟨root, g, g', accepted, normalized, _, _, compiled⟩ := exists_compiled object run
    exact unbounded_of_strips strips typed accepted normalized compiled listed array
  · exact likewise_compile Omission.boundless_lawful Node.boundless_fits Node.sameButText_kinship
      same fun root g h accepted accepted' kindred =>
        normalizedAlike_of_bounds strips typed typed' accepted accepted' kindred

/-- The same shelves without their bounds, but for other ones in one place. -/
def looseShelves : Document where
  root := .obj [("title", .str "Shelves"), ("type", .str "object"), ("properties", .obj [
    ("books", .obj [("items", .arr [.obj [("$link", .str "row")], .bool true])]),
    ("top", .obj [("$link", .str "row")]),
    ("rest", .obj [("minItems", .int 7), ("type", .str "array")])])]
  parts := [("row", .obj [("type", .arr [.str "array", .str "null"]),
    ("items", .obj [("type", .str "string")])])]

theorem typed_looseShelves : looseShelves.Typed :=
  Document.each_of_closed [⟨none, []⟩, ⟨none, [⟨"properties", some 0⟩]⟩, ⟨some "row", []⟩,
    ⟨some "row", [⟨"items", none⟩]⟩, ⟨none, [⟨"properties", some 2⟩]⟩]
    (by decide +kernel) (by decide +kernel) (by decide +kernel)

/-- With the bounds stripped, the one list of items makes the only tuple, whatever they are. -/
theorem compile_looseShelves : ∃ t later,
    compile shelves { stripItemBounds := true } ({ fileName := some "t.json" } : Builder) =
      .ok t later ∧
    (∀ u, later.types.Reaches t u → (later.types.node u).kind = some .tuple →
      ∃ k category p fields items, ((k, category), u) ∈ later.built ∧ shelves.MadeOf later k p ∧
        shelves.fieldsAt p = some fields ∧ fields.lookup "items" = some (.arr items) ∧
        (later.types.node u).IsTupleOf items) ∧
    Likewise (fun _ _ => True)
      (compile shelves { stripItemBounds := true } ({ fileName := some "t.json" } : Builder))
      (compile looseShelves { stripItemBounds := true }
        ({ fileName := some "t.json" } : Builder)) := by
  obtain ⟨t, later, run⟩ := exists_of_succeeds (show succeeds (compile shelves
    { stripItemBounds := true } ({ fileName := some "t.json" } : Builder)) = true by
      decide +kernel)
  have same : Omission.boundless.document shelves = Omission.boundless.document looseShelves := by
    rfl
  obtain ⟨made, alike⟩ :=
    compile_stripped shelves { stripItemBounds := true } (some "t.json") typed_shelves rfl
  exact ⟨t, later, run, (made t later run).1, alike looseShelves typed_looseShelves same⟩

end Build
end LinkedSchema
