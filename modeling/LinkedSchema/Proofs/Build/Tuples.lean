import LinkedSchema.Proofs.Build.Arrays
import LinkedSchema.Proofs.Build.Filing
import LinkedSchema.Proofs.Build.Typing
import LinkedSchema.Proofs.Normalize.NormalForm
/-! The places of tuples. A tuple has no more places than its upper bound, unless it was made for an
array of anything whose bounds contradict each other. -/
namespace LinkedSchema

variable {g : Graph} {r i k : NodeId} {b : Builder} {o : Origin} {n : Node} {t u : TypeId}
  {category : Category} {form : Form Subject} {e : (NodeId × Category) × TypeId} {x : Subject}
  {d : Document} {options : Options} {fileName : Option String}

/-- The categories of arrays. -/
def Category.IsArray (category : Category) : Prop :=
  category = .typedArray ∨ category = .untypedArray

namespace Node

/-- Tuples are made in the categories of arrays only. -/
theorem isArray_of_tuple (made : n.formIn category = some form) (tuple : form.kind = some .tuple) :
    category.IsArray := by
  cases category with
  | typedArray => exact .inl rfl
  | untypedArray => exact .inr rfl
  | namedEnum =>
    have made : n.namedEnumForm = some form := made
    unfold namedEnumForm at made
    split at made
    · obtain ⟨names, _, made⟩ := Option.bind_eq_some_iff.mp made
      split at made
      · cases made
        cases tuple
      · cases made
    · cases made
  | unnamedEnum =>
    obtain ⟨values, _, rfl⟩ := Option.map_eq_some_iff.mp made
    cases tuple
  | reference => cases made
  | _ =>
    cases made
    cases tuple

/-- A tuple with given items has a place for each of them, and the bounds of the node. -/
theorem typedArray_tuple (made : n.formIn .typedArray = some form)
    (tuple : form.kind = some .tuple) : ∃ items, n.items = some (.positions items) ∧
      form.params.count = items.length ∧ form.minItems = n.minItems ∧
      form.maxItems = n.maxItems := by
  have made : n.typedArrayForm = form := Option.some.inj made
  subst made
  unfold typedArrayForm at tuple ⊢
  cases found : n.items with
  | none =>
    rw [found] at tuple
    cases tuple
  | some items =>
    rw [found] at tuple
    cases items with
    | each item => cases tuple
    | positions items =>
      exact ⟨items, rfl, by simp [collectionForm, Params.count], rfl, rfl⟩

/-- A tuple of anything has as many places as its bounds call for. -/
theorem untypedArray_tuple (made : n.formIn .untypedArray = some form)
    (tuple : form.kind = some .tuple) : ∃ places,
      places? (n.maxItems.int?.getD (-1)) n.minItems.orZero = some (some places) ∧
      form.params.count = places ∧ form.minItems = n.minItems.orZero ∧
      form.maxItems = n.maxItems := by
  obtain ⟨found, counted, rfl⟩ := Option.map_eq_some_iff.mp made
  cases found with
  | none => cases tuple
  | some places => exact ⟨places, counted, by simp [collectionForm, Params.count], rfl, rfl⟩

/-- The bounds call for no more places than the upper one, unless the lower one is above it. -/
theorem places_of_bounded {upper : Int} {lower : Json} {places : Nat}
    (counted : places? upper lower = some (some places)) (bounded : 0 ≤ upper) :
    (places : Int) ≤ upper ∨ lower.int? = some (places : Int) ∧ upper < places := by
  obtain ⟨bound, number, counted⟩ := Option.bind_eq_some_iff.mp counted
  simp only [bounded, decide_true, Bool.or_true, if_true] at counted
  split at counted
  · rename_i above
    obtain ⟨count, integer, same⟩ := Option.map_eq_some_iff.mp counted
    rw [Rule.number_of_int integer, Option.some.injEq] at number
    rw [← number, Rule.less_int, decide_eq_true_eq] at above
    have whole : (places : Int) = count := by
      rw [← Option.some.inj same]
      omega
    exact .inr ⟨by rw [whole, integer], by omega⟩
  · have same := Option.some.inj (Option.some.inj counted)
    exact .inl (by omega)

end Node

/-- Copies have the items and the bounds of what they are copies of. -/
theorem Graph.content_array (g : Graph) (o : Origin) :
    (g.content o).items = (g.node o.base).items ∧
      (g.content o).minItems = (g.node o.base).minItems ∧
      (g.content o).maxItems = (g.node o.base).maxItems := by
  induction o with
  | node i => exact ⟨rfl, rfl, rfl⟩
  | unnamed o ih => exact ih
  | ofType o type ih => exact ih

theorem Represents.base_lt {strips : List (NodeId × NodeId)}
    {narrows : List ((NodeId × Json) × NodeId)} (represents : Represents g strips narrows o k) :
    o.base < g.size := by
  induction represents with
  | node inside => exact inside
  | unnamed _ _ ih => exact ih
  | ofType _ _ ih => exact ih

/-- A copy has no type that its node does not have. -/
theorem Represents.hasType {schemas : Graph} {strips : List (NodeId × NodeId)}
    {narrows : List ((NodeId × Json) × NodeId)} {name : String}
    (copies : Copies g schemas strips narrows) (represents : Represents g strips narrows o k)
    (has : (g.content o).hasType name = true) : (g.node o.base).hasType name = true := by
  induction represents with
  | node => exact has
  | unnamed _ _ ih => exact ih has
  | @ofType o i k type source listed ih =>
    obtain ⟨_, _, _, _, _, own, flat⟩ := copies.narrowed _ listed
    rw [source.content copies] at own
    have named : type.isStr name = true := by
      cases type <;> first | exact has | cases flat
    refine ih ?_
    unfold Node.typeList at own
    split at own
    · rename_i types given
      unfold Node.hasType
      rw [given]
      exact List.any_eq_true.mpr ⟨type, own, named⟩
    · cases own

/-- An array is made of a node that describes arrays, itself or as a copy. -/
theorem Represents.isArrayLike {schemas : Graph} {strips : List (NodeId × NodeId)}
    {narrows : List ((NodeId × Json) × NodeId)} (copies : Copies g schemas strips narrows)
    (represents : Represents g strips narrows o k) (array : category.IsArray)
    (holds : Category.holds (g.content o) category = true) :
    (g.node o.base).isArrayLike = true := by
  rcases array with rfl | rfl
  · have items : (g.content o).items.isSome = true := by
      simp only [Category.holds, Bool.and_eq_true] at holds
      exact holds.2
    rw [(g.content_array o).1] at items
    simp [Node.isArrayLike, items]
  · have named : (g.content o).hasType "array" = true := by
      simp only [Category.holds, Bool.and_eq_true] at holds
      unfold Node.hasType
      split
      · rename_i types given
        rw [given] at holds
        cases holds.1
      · exact holds.1
    simp [Node.isArrayLike, represents.hasType copies named]

namespace Builder

theorem hidden_of_unnamed (represents : b.Represents g (.unnamed o) k) : b.Hidden k := by
  cases represents with
  | unnamed _ listed => exact ⟨_, listed, rfl⟩

namespace Filed

variable (filed : b.Filed g r) (listed : e ∈ b.built) (complete : b.Complete g e)
include filed listed complete

/-- The type of an entry is an intersection, or has the form that its origin has in the category of
the entry. An unnamed copy may be built in the categories that it is made for. -/
theorem exists_form : ∃ o form, b.Represents g o e.1.1 ∧ g.Reaches r o.base ∧
    (b.types.node e.2).form.Matches Eq (b.Stands g) form ∧
    (e.1.2 = .allOf ∧ form.kind = some .intersection ∨ (g.content o).formIn e.1.2 = some form ∧
      ∃ p, (o = p ∨ o = .unnamed p) ∧ e.1.2 ∈ (g.content p).categories) := by
  obtain ⟨o, represents, reached, calls⟩ := filed.entries e listed
  obtain ⟨form, made, agree⟩ := complete
  rw [represents.content filed.copies] at made
  refine ⟨o, form, represents, reached, agree, ?_⟩
  rcases made with ⟨hidden, made⟩ | ⟨shown, made⟩
  · cases o with
    | unnamed p => exact .inr ⟨made, p, .inr rfl, calls⟩
    | _ => exact absurd hidden (represents.shown filed.copies trivial)
  · have visible : o.Shown := by
      cases o with
      | unnamed p => exact absurd (hidden_of_unnamed represents) shown
      | _ => trivial
    have slot := visible.calls_iff.mp calls
    by_cases several : ∀ c, (g.content o).categories ≠ [c]
    · rw [Node.form_of_several several] at made
      rw [Node.slot_of_several several] at slot
      cases made
      exact .inl ⟨slot, rfl⟩
    · obtain ⟨c, only⟩ := not_forall_not.mp several
      have same : e.1.2 = c := by simpa only [Node.slot, only] using slot
      rw [Node.form_of_single only, ← same] at made
      exact .inr ⟨made, o, .inl rfl, by rw [only, same]; exact List.mem_cons_self⟩

/-- Types that are tuples are remembered in the categories of arrays. -/
theorem isArray_of_tuple (tuple : (b.types.node e.2).kind = some .tuple) : e.1.2.IsArray := by
  obtain ⟨o, form, _, _, agree, kinds⟩ := filed.exists_form listed complete
  have kind : form.kind = some .tuple := agree.kind.symm.trans tuple
  rcases kinds with ⟨_, other⟩ | ⟨made, _⟩
  · rw [kind] at other
    cases other
  · exact Node.isArray_of_tuple made kind

/-- The type of an array is made of a node that describes arrays, or of a copy of one. -/
theorem exists_array (array : e.1.2.IsArray) : ∃ o form, b.Represents g o e.1.1 ∧
    g.Reaches r o.base ∧ (g.node o.base).isArrayLike = true ∧
    Category.holds (g.content o) e.1.2 = true ∧ (g.content o).formIn e.1.2 = some form ∧
    (b.types.node e.2).form.Matches Eq (b.Stands g) form := by
  obtain ⟨o, form, represents, reached, agree, kinds⟩ := filed.exists_form listed complete
  rcases kinds with ⟨other, _⟩ | ⟨made, p, source, own⟩
  · rw [other] at array
    rcases array with same | same <;> cases same
  · have above : Category.holds (g.content p) e.1.2 = true := by
      refine (Build.holds_of_mem_categories own).resolve_left fun record => ?_
      rw [record] at array
      rcases array with same | same <;> cases same
    have holds : Category.holds (g.content o) e.1.2 = true := by
      rcases source with rfl | rfl
      · exact above
      · rcases array with same | same <;> rw [same] at above ⊢ <;> exact above
    exact ⟨o, form, represents, reached, represents.isArrayLike filed.copies array holds, holds,
      made, agree⟩

end Filed

/-- A tuple that is made in a build is remembered for a node in the category of an array. -/
theorem exists_entry_of_tuple (filed : b.Filed g r) (sound : b.Sound g)
    (complete : ∀ e ∈ b.built, b.Complete g e) (stands : b.Stands g t x)
    (reached : b.types.Reaches t u) (tuple : (b.types.node u).kind = some .tuple) :
    ∃ i category, ((i, category), u) ∈ b.built ∧ category.IsArray := by
  have entered (i : NodeId) (category : Category) (listed : ((i, category), u) ∈ b.built) :
      ∃ i category, ((i, category), u) ∈ b.built ∧ category.IsArray :=
    ⟨i, category, listed, filed.isArray_of_tuple listed (complete _ listed) tuple⟩
  have leaf {s : Subschema} (made : s.leaf = some (b.types.node u).form) :
      ∃ i category, ((i, category), u) ∈ b.built ∧ category.IsArray := by
    have kinds := Subschema.kind_of_leaf made
    simp only [TypeNode.form, tuple] at kinds
    rcases kinds with kind | kind | kind <;> cases kind
  obtain ⟨y, standing⟩ := exists_stands_of_reaches sound complete stands reached
  cases y with
  | schema s =>
    cases s with
    | node j => exact entered _ _ standing.2.2.2
    | bool allowed => exact leaf standing.2.2
    | bare v => exact leaf standing.2.2
  | whole n =>
    obtain ⟨i, holds, _⟩ := standing
    exact entered _ _ holds.2.2
  | part n category =>
    obtain ⟨i, _, _, listed, _⟩ := standing
    exact entered _ _ listed

end Builder

namespace Build

variable {g' : Graph} {later : Builder} {fields : Entries Json} {root : NodeId}

/-- What is remembered of the compilation of an object. -/
structure Compiled (g' : Graph) (root : NodeId) (t : TypeId) (later : Builder) : Prop where
  filed : later.Filed g' root
  sound : later.Sound g'
  complete : ∀ e ∈ later.built, later.Complete g' e
  stands : later.Stands g' t (.schema (.node root))

theorem exists_compiled (object : d.root = .obj fields)
    (run : compile d options ({ fileName } : Builder) = .ok t later) :
    ∃ root g g', d.ingest .empty = .ok root g ∧
      Graph.normalize options fileName root g = .ok () g' ∧ root < g'.size ∧
        typeOf (.node root) none (.fresh g' .empty fileName) = .ok t later ∧
          Compiled g' root t later := by
  obtain ⟨root, g, g', accepted, normalized, closed, inside, built⟩ := exists_of_compile object run
  have below : Subschema.Below g'.size (.node root) := inside
  obtain ⟨continues, stands⟩ := stands_typeOf closed below built
  exact ⟨root, g, g', accepted, normalized, inside, built, files_typeOf closed inside built,
    continues.sound, continues.all_complete, stands⟩

/-- What is compiled is an object, or a boolean in whose type nothing is remembered and no tuple
made. -/
theorem compile_cases (run : compile d options ({ fileName } : Builder) = .ok t later) :
    (∃ fields, d.root = .obj fields) ∨
      later.built = [] ∧ ∀ u, (later.types.node u).kind ≠ some .tuple := by
  have refused (noObject : d.root.isObj = false) (noBool : d.root.isBool = false) : False := by
    obtain ⟨_, refused⟩ := ingest_of_other noObject
    obtain ⟨e, b, failed⟩ := compile_refused noBool refused options fileName
    cases run.symm.trans failed
  cases object : d.root with
  | obj fields => exact .inl ⟨fields, rfl⟩
  | bool allowed =>
    rw [compile, object] at run
    cases run
    refine .inr ⟨rfl, fun u => ?_⟩
    change ((TypeGraph.empty.push (booleanSchema none allowed)).node u).kind ≠ some .tuple
    rcases Nat.eq_zero_or_pos u with rfl | above
    · rw [show (TypeGraph.empty.push (booleanSchema none allowed)).node 0 =
        booleanSchema none allowed from TypeGraph.node_push_self .empty _]
      cases allowed <;> exact nofun
    · rw [TypeGraph.node_of_le (Nat.succ_le_of_lt above)]
      exact nofun
  | _ =>
    refine (refused ?_ ?_).elim <;> rw [object] <;> rfl

/-- A tuple with an upper bound has no more places than that, unless it is one of anything, made for
a node whose lower bound is above the upper one. It has as many places as the lower bound then. -/
theorem compile_tuples (d : Document) (options : Options) (fileName : Option String)
    (typed : d.Typed) (run : compile d options ({ fileName } : Builder) = .ok t later) :
    ∀ u, later.types.Reaches t u → (later.types.node u).kind = some .tuple →
      ∀ upper, (later.types.node u).maxItems.int? = some upper → 0 ≤ upper →
        ((later.types.node u).params.count : Int) ≤ upper ∨
        ∃ (i : NodeId) (lower : Nat), ((i, .untypedArray), u) ∈ later.built ∧
          (later.schemas.node i).items = none ∧
          (later.types.node u).minItems.int? = some (lower : Int) ∧ upper < lower ∧
          (later.types.node u).params.count = lower := by
  intro u reached tuple upper bound given
  obtain ⟨fields, object⟩ := (compile_cases run).resolve_right fun none => none.2 u tuple
  obtain ⟨root, g, g', accepted, normalized, inside, _, compiled⟩ := exists_compiled object run
  obtain ⟨filed, sound, complete, stands⟩ := compiled
  obtain ⟨i, category, listed, array⟩ :=
    Builder.exists_entry_of_tuple filed sound complete stands reached tuple
  obtain ⟨o, form, represents, below, _, holds, made, agree⟩ :=
    filed.exists_array listed (complete _ listed) array
  have kind : form.kind = some .tuple := agree.kind.symm.trans tuple
  have count : (later.types.node u).params.count = form.params.count := agree.params.count
  have lowest : (later.types.node u).minItems = form.minItems := agree.minItems
  have highest : (later.types.node u).maxItems = form.maxItems := agree.maxItems
  obtain ⟨items, minItems, maxItems⟩ := g'.content_array o
  rw [highest] at bound
  rw [count, lowest]
  rcases array with rfl | rfl
  · obtain ⟨places, found, counted, _, upmost⟩ := Node.typedArray_tuple made kind
    have normal : (g'.node o.base).Normal options :=
      Graph.normal_of_normalize (fun _ below => Document.Typed.of_ingest typed accepted below.1)
        normalized o.base ⟨represents.base_lt, below⟩
    rw [upmost, maxItems] at bound
    rw [counted]
    exact .inl (normal.positions (items.symm.trans found) bound given)
  · obtain ⟨places, called, counted, lowermost, upmost⟩ := Node.untypedArray_tuple made kind
    rw [upmost] at bound
    rw [bound] at called
    rw [counted, lowermost]
    rcases Node.places_of_bounded called given with few | ⟨least, above⟩
    · exact .inl few
    · refine .inr ⟨i, places, listed, ?_, least, above, rfl⟩
      rw [represents.content filed.copies]
      simpa only [Category.holds, Bool.and_eq_true, Option.isNone_iff_eq_none] using
        (Bool.and_eq_true_iff.mp holds).2

/-- A tuple of two given items that is cut short, one that is made of a single item for all of its
places, in a copy of a node of two types, and one of anything. -/
def shelves : Document where
  root := .obj [("title", .str "Shelves"), ("type", .str "object"), ("properties", .obj [
    ("books", .obj [("items", .arr [.obj [("$link", .str "row")], .bool true]),
      ("maxItems", .int 1)]),
    ("top", .obj [("$link", .str "row")]),
    ("rest", .obj [("type", .str "array"), ("maxItems", .int 2)])])]
  parts := [("row", .obj [("type", .arr [.str "array", .str "null"]), ("minItems", .int 3),
    ("items", .obj [("type", .str "string")]), ("maxItems", .int 2)])]

theorem typed_shelves : shelves.Typed :=
  Document.each_of_closed [⟨none, []⟩, ⟨none, [⟨"properties", some 0⟩]⟩, ⟨some "row", []⟩,
    ⟨some "row", [⟨"items", none⟩]⟩, ⟨none, [⟨"properties", some 2⟩]⟩]
    (by decide +kernel) (by decide +kernel) (by decide +kernel)

theorem compile_shelves : ∃ t later,
    compile shelves {} ({ fileName := some "t.json" } : Builder) = .ok t later ∧
      ∀ u, later.types.Reaches t u → (later.types.node u).kind = some .tuple →
        ∀ upper, (later.types.node u).maxItems.int? = some upper → 0 ≤ upper →
          ((later.types.node u).params.count : Int) ≤ upper ∨
          ∃ (i : NodeId) (lower : Nat), ((i, .untypedArray), u) ∈ later.built ∧
            (later.schemas.node i).items = none ∧
            (later.types.node u).minItems.int? = some (lower : Int) ∧ upper < lower ∧
            (later.types.node u).params.count = lower := by
  obtain ⟨t, later, run⟩ := exists_of_succeeds
    (show succeeds (compile shelves {} ({ fileName := some "t.json" } : Builder)) = true by
      decide +kernel)
  exact ⟨t, later, run, compile_tuples shelves {} (some "t.json") typed_shelves run⟩

/-- An array of anything whose lower bound is above its upper one. -/
def crowded : Document where
  root := .obj [("type", .str "array"), ("minItems", .int 3), ("maxItems", .int 1)]

/-- Where the bounds of an array of anything contradict each other, the tuple has as many places as
the lower one calls for. -/
theorem compile_crowded : crowded.Typed ∧ ∃ t later,
    compile crowded {} ({ fileName := some "t.json" } : Builder) = .ok t later ∧
      (later.types.node t).kind = some .tuple ∧ (later.types.node t).maxItems.int? = some 1 ∧
        (later.types.node t).params.count = 3 := by
  refine ⟨Document.each_of_closed [⟨none, []⟩] (by decide +kernel) (by decide +kernel)
    (by decide +kernel), ?_⟩
  obtain ⟨t, later, run, ends⟩ := exists_of_endsIn (show endsIn (fun t later => decide
      ((later.types.node t).kind = some .tuple ∧ (later.types.node t).maxItems.int? = some 1 ∧
        (later.types.node t).params.count = 3))
    (compile crowded {} ({ fileName := some "t.json" } : Builder)) = true by decide +kernel)
  exact ⟨t, later, run, of_decide_eq_true ends⟩

end Build
end LinkedSchema
