import LinkedSchema.Proofs.Normalize.Edges
import LinkedSchema.Schema.Category
import LinkedSchema.Schema.Ingest
/-! Objects that declare types and list values, and say nothing else: their nodes, and what a
normalization makes of these. -/
namespace LinkedSchema

variable {fields : Entries Json} {names : List String} {values : List Json} {enum : Json}
  {const : Option Json} {options : Options}

/-- Fields with no other keywords than these. -/
def OnlyEnumerates (fields : Entries Json) : Prop :=
  ∀ e ∈ fields, e.1 = "type" ∨ e.1 = "enum" ∨ e.1 = "const"

/-- The fields of an object that declares types by name, and lists values or gives a constant. -/
structure Enumerates (fields : Entries Json) (names : List String) (values : List Json) :
    Prop where
  only : OnlyEnumerates fields
  type : fields.lookup "type" = some (.arr (names.map .str))
  named : ∀ name ∈ names, name = "null" ∨ name ∈ Node.enumTypes
  values : (fields.lookup "enum" = some (.arr values) ∧ fields.lookup "const" = none) ∨
    ∃ v, values = [v] ∧ fields.lookup "enum" = none ∧ fields.lookup "const" = some v

/-- A node that declares types, lists values or has a constant, and says nothing else. -/
def Node.enumeration (type enum : Json) (const : Option Json) : Node := { type, enum, const }

theorem OnlyEnumerates.lookup {keyword : String} (only : OnlyEnumerates fields)
    (type : keyword ≠ "type") (enum : keyword ≠ "enum") (const : keyword ≠ "const") :
    fields.lookup keyword = none := by
  rw [List.lookup_eq_none_iff]
  intro e listed
  rcases only e listed with same | same | same <;> simp [same, type, enum, const]

/-- A graph of one node. -/
def Graph.alone (n : Node) : Graph := ⟨#[n]⟩

theorem Graph.forall_alone {P : Node → Prop} {n : Node} (holds : P n) :
    ∀ i < (alone n).size, P ((alone n).node i) := by
  intro i inside
  obtain rfl : i = 0 := Nat.lt_one_iff.mp inside
  exact holds

namespace Ingestion

theorem optional_absent {α : Type} {keyword : String} {read : String → Json → Ingestion α}
    (only : OnlyEnumerates fields) (type : keyword ≠ "type") (enum : keyword ≠ "enum")
    (const : keyword ≠ "const") : optional fields keyword read = pure none := by
  rw [optional, only.lookup type enum const]

theorem node_enumeration (object : Json → Ingestion NodeId) (only : OnlyEnumerates fields) :
    node object none fields = pure (.enumeration ((fields.lookup "type").getD .null)
      ((fields.lookup "enum").getD .null) (fields.lookup "const")) := by
  unfold node
  simp (disch := first | exact only | decide) only [optional_absent, pure_bind, only.lookup]
  rfl

end Ingestion

/-- The document is ingested to a graph of one node. -/
theorem Document.ingest_enumeration {d : Document} (root : d.root = .obj fields)
    (only : OnlyEnumerates fields) :
    d.ingest .empty = .ok 0 (.alone (.enumeration ((fields.lookup "type").getD .null)
      ((fields.lookup "enum").getD .null) (fields.lookup "const"))) := by
  have noLink : (Json.obj fields).link? = none := by
    unfold Json.link?
    split
    · rename_i same
      cases same
      have key := only _ List.mem_cons_self
      simp at key
    · rfl
  have run : Ingestion.object d (d.weight + 1) none (.obj fields) = do
      let i ← Ingestion.reserve none none
      Ingestion.finish i (.enumeration ((fields.lookup "type").getD .null)
        ((fields.lookup "enum").getD .null) (fields.lookup "const"))
      return i := by
    rw [Ingestion.object.eq_def]
    simp only [noLink, Ingestion.node_enumeration _ only, pure_bind]
  rw [Document.ingest, root, run]
  rfl

/-- Declared types, of which a single one stands by itself. -/
def Json.ofNames : List String → Json
  | [name] => .str name
  | names => .arr (names.map .str)

theorem Node.hasType_ofNames (names : List String) (enum : Json) (const : Option Json)
    (name : String) : (enumeration (.ofNames names) enum const).hasType name =
      names.any (· == name) := by
  rcases names with _ | ⟨first, _ | ⟨second, rest⟩⟩
  · rfl
  · simp [hasType, enumeration, Json.ofNames, Json.isStr]
  · simp [hasType, enumeration, Json.ofNames, Json.isStr, Function.comp_def]

namespace Rule

/-- The types that are left where a null may be among the values. -/
def typesLeft (names : List String) (null : Bool) : List String :=
  if null then names.filter (· != "null") else names

theorem mem_typesLeft {null : Bool} {name : String} :
    name ∈ typesLeft names null ↔ name ∈ names ∧ (null = true → name ≠ "null") := by
  cases null <;> simp [typesLeft]

theorem dropNullType_enumeration (names : List String) (enum : Json) (const : Option Json) :
    dropNullType (.enumeration (.arr (names.map .str)) enum const) =
      .enumeration (.arr ((typesLeft names (admitsNull
        (.enumeration (.arr (names.map .str)) enum const))).map .str)) enum const := by
  have texts : (names.map Json.str).filter (!·.isStr "null") =
      (names.filter (· != "null")).map .str := by
    simp [List.filter_map, Function.comp_def, Json.isStr, bne]
  generalize made : Node.enumeration (.arr (names.map .str)) enum const = n
  have type : n.type = .arr (names.map .str) := by rw [← made]; rfl
  unfold dropNullType
  rw [type]
  dsimp only
  rw [texts]
  split
  · rename_i found
    rw [typesLeft, if_pos (Bool.and_eq_true_iff.mp found).1, ← made]
    rfl
  · rename_i unneeded
    by_cases null : admitsNull n = true
    · have absent : "null" ∉ names := by
        simpa [null, Json.isStr] using unneeded
      have all : names.filter (· != "null") = names := by
        refine List.filter_eq_self.mpr fun name listed => ?_
        rw [bne_iff_ne]
        rintro rfl
        exact absent listed
      rw [typesLeft, if_pos null, all, made]
    · rw [typesLeft, if_neg null, made]

theorem admitsNull_enumeration (enumerates : Enumerates fields names values) (type : Json) :
    admitsNull (.enumeration type ((fields.lookup "enum").getD .null) (fields.lookup "const")) =
      values.any Json.isNull := by
  rcases enumerates.values with ⟨enum, const⟩ | ⟨v, rfl, enum, const⟩ <;>
    simp [admitsNull, Node.enumeration, enum, const]

theorem unwrapSingleType_enumeration (names : List String) (enum : Json) (const : Option Json) :
    unwrapSingleType (.enumeration (.arr (names.map .str)) enum const) =
      .enumeration (.ofNames names) enum const := by
  rcases names with _ | ⟨first, _ | ⟨second, rest⟩⟩ <;> rfl

theorem constToEnum_enumeration (enumerates : Enumerates fields names values) (type : Json) :
    constToEnum (.enumeration type ((fields.lookup "enum").getD .null) (fields.lookup "const")) =
      .enumeration type (.arr values) none := by
  rcases enumerates.values with ⟨enum, const⟩ | ⟨v, rfl, enum, const⟩ <;> rw [enum, const] <;> rfl

theorem Steady.idle {rule : Rule} {rules : List Rule} {n m : Node}
    (idle : rule.apply options n = .ok n) (rest : Steady options rules n m) :
    Steady options (rule :: rules) n m := ⟨n, idle, rfl, rest⟩

/-- Between the rules for types and the one for constants, no rule has anything to do where no type
of objects or arrays is declared. -/
theorem steady_between {type enum : Json} {const : Option Json} {m : Node}
    (plain : ∀ name ∈ ["object", "any", "array"],
      (Node.enumeration type enum const).hasType name = false)
    (last : Steady options (all.drop 14) (.enumeration type enum const) m) :
    Steady options (all.drop 2) (.enumeration type enum const) m := by
  have noObject : (Node.enumeration type enum const).isObjectLike = false := by
    rw [Node.isObjectLike, plain "object" (by simp), plain "any" (by simp)]
    rfl
  have noArray : (Node.enumeration type enum const).isArrayLike = false := by
    rw [Node.isArrayLike, plain "array" (by simp), plain "any" (by simp)]
    rfl
  refine .idle ?_ (.idle ?_ (.idle ?_ (.idle ?_ (.idle ?_ (.idle ?_ (.idle ?_ (.idle ?_ (.idle ?_
    (.idle ?_ (.idle ?_ (.idle ?_ last)))))))))))
  · simp [defaultRequired, noObject]
  · rfl
  · simp [defaultAdditionalProperties, noObject]
  · rfl
  · rfl
  · simp [documentBounds, noArray]
  · simp [stripBounds, noArray]
  · simp [defaultMinItems, noArray]
  · simp [dropWideMaxItems, noArray]
  · rfl
  · rfl
  · rfl

theorem steady_enumeration (enumerates : Enumerates fields names values) (options : Options) :
    Steady options all
      (.enumeration (.arr (names.map .str)) ((fields.lookup "enum").getD .null)
        (fields.lookup "const"))
      (.enumeration (.ofNames (typesLeft names (values.any Json.isNull))) (.arr values) none) := by
  have dropped := dropNullType_enumeration names ((fields.lookup "enum").getD .null)
    (fields.lookup "const")
  rw [admitsNull_enumeration enumerates] at dropped
  have plain : ∀ name ∈ ["object", "any", "array"],
      (Node.enumeration (.ofNames (typesLeft names (values.any Json.isNull)))
        ((fields.lookup "enum").getD .null) (fields.lookup "const")).hasType name = false := by
    intro name listed
    rw [Node.hasType_ofNames, List.any_eq_false]
    intro other left
    have known := enumerates.named other (mem_typesLeft.mp left).1
    simp only [Node.enumTypes, List.mem_cons, List.not_mem_nil, or_false] at known listed
    rcases listed with rfl | rfl | rfl <;> rcases known with rfl | rfl | rfl | rfl | rfl <;> decide
  exact ⟨_, congrArg Except.ok dropped, rfl, _,
    congrArg Except.ok (unwrapSingleType_enumeration _ _ _), rfl,
    steady_between plain ⟨_, congrArg Except.ok (constToEnum_enumeration enumerates _), rfl, rfl⟩⟩

end Rule

theorem Graph.normalize_alone {n m : Node} (steady : Rule.Steady options Rule.all n m)
    (fileName : Option String) : normalize options fileName 0 (alone n) = .ok () (alone m) := by
  obtain ⟨h, run, size, made, _⟩ : ∃ h, normalize options fileName 0 (alone n) = .ok () h ∧
      h.size = (alone n).size ∧ (∀ i, (alone n).Below 0 i → h.node i = m) ∧
      ∀ i, ¬ (alone n).Below 0 i → h.node i = (alone n).node i :=
    applyRules_steady fun i below =>
      forall_alone (P := fun k => Rule.Steady options Rule.all k m) steady i below.1
  rw [run]
  congr 1
  refine ext_node size fun i inside => ?_
  rw [size] at inside
  obtain rfl : i = 0 := Nat.lt_one_iff.mp inside
  exact made 0 ⟨Nat.one_pos, .refl⟩

end LinkedSchema
