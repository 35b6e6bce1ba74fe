import LinkedSchema.Proofs.Normalize.Idempotent
/-! What a reader of a normalized graph can rely on, node by node. -/
namespace LinkedSchema

variable {g h : Graph} {root : NodeId} {options : Options} {n : Node}

namespace Node

/-- Objects list what they require, and say something of names that they do not list. -/
structure NormalObject (n : Node) : Prop where
  required : n.required ≠ .null ∧ n.required ≠ .bool false
  additional : n.additionalProperties.isSome ∨ n.patternProperties.isSome

/-- Arrays have a lower bound, and an upper one only if it is near. -/
structure NormalArray (options : Options) (n : Node) : Prop where
  bounds : ∃ lower, n.minItems.int? = some lower ∧ (n.maxItems = .null ∨
    ∃ upper, n.maxItems.int? = some upper ∧ upper - lower ≤ options.maxTupleSize)
  stripped : options.stripItemBounds = true → n.minItems = .int 0 ∧ n.maxItems = .null

/-- A node in normal form, field by field. -/
structure NormalForm (options : Options) (n : Node) : Prop where
  object : n.isObjectLike = true → n.NormalObject
  array : n.isArrayLike = true → n.NormalArray options
  single : ∀ item, n.items = some (.each item) →
    (n.maxItems = .null ∨ ∃ upper, n.maxItems.int? = some upper ∧ upper < 0) ∧
      ∃ lower, n.minItems.int? = some lower ∧ lower ≤ 0
  positions : ∀ items upper, n.items = some (.positions items) → n.maxItems.int? = some upper →
    0 ≤ upper → items.length ≤ upper
  bases : n.bases = none ∨ ∃ base more, n.bases = some (.many (base :: more))
  const : n.const = none
  legacyId : n.legacyId.truthy = false
  severalTypes : ∀ v, n.type ≠ .arr [v]
  noNullType : ∀ types values, n.type = .arr types → n.enum = .arr values → .null ∈ values →
    .str "null" ∉ types
  description : ∀ text, n.description = .str text → ¬ ['*', '/'] <:+: text.toList

theorem Normal.object (normal : n.Normal options) (object : n.isObjectLike = true) :
    n.NormalObject where
  required := by
    refine ⟨fun absent => ?_, normal.listed⟩
    have given := normal.required object
    rw [absent] at given
    cases given
  additional := normal.additional object

theorem orZero_int {v : Json} {k : Int} (integer : v.int? = some k) : v.orZero.int? = some k := by
  cases v with
  | int x => by_cases zero : x = 0 <;> simp_all [Json.orZero, Json.truthy, Json.int?]
  | bool b => cases b <;> simp_all [Json.orZero, Json.truthy, Json.int?]
  | _ => cases integer

theorem Normal.array (normal : n.Normal options) (array : n.isArrayLike = true) :
    n.NormalArray options where
  bounds := by
    obtain ⟨lower, integer⟩ := Option.isSome_iff_exists.mp (normal.minItems array)
    refine ⟨lower, integer, ?_⟩
    rcases normal.narrow array with absent | ⟨upper, lower', found, same, near⟩
    · exact .inl absent
    · rw [orZero_int integer, Option.some.injEq] at same
      exact .inr ⟨upper, found, same ▸ near⟩
  stripped strips := normal.stripped strips array

/-- One schema for all elements stands for no tuple, so the bounds make none. -/
theorem Normal.unbounded (normal : n.Normal options) {item : Subschema}
    (found : n.items = some (.each item)) :
    (n.maxItems = .null ∨ ∃ upper, n.maxItems.int? = some upper ∧ upper < 0) ∧
      ∃ lower, n.minItems.int? = some lower ∧ lower ≤ 0 := by
  obtain ⟨noUpper, noLower⟩ := normal.toHasPlaces.single item found
  have array : n.isArrayLike = true := by simp [isArrayLike, found]
  obtain ⟨lower, integer, upper⟩ := (normal.array array).bounds
  simp only [Rule.upperBound?, Rule.lowerBound?, Option.filter_eq_none_iff] at noUpper noLower
  constructor
  · rcases upper with absent | ⟨upper, given, _⟩
    · exact .inl absent
    · exact .inr ⟨upper, given, by simpa using noUpper upper given⟩
  · exact ⟨lower, integer, by simpa using noLower lower integer⟩

theorem Normal.positions (normal : n.Normal options) {items : List Subschema} {upper : Int}
    (found : n.items = some (.positions items)) (bound : n.maxItems.int? = some upper)
    (given : 0 ≤ upper) : items.length ≤ upper := by
  have least : Rule.upperBound? n = some upper := by
    rw [Rule.upperBound?, bound]
    simp [given]
  have few := normal.places items upper found least
  omega

theorem Normal.bases_listed (normal : n.Normal options) :
    n.bases = none ∨ ∃ base more, n.bases = some (.many (base :: more)) := by
  obtain ⟨noNull, noMembers, noSingle⟩ := normal.bases
  cases found : n.bases with
  | none => exact .inl rfl
  | some bases =>
    cases bases with
    | null => exact absurd found noNull
    | one base => exact absurd found (noSingle base)
    | many bases =>
      cases bases with
      | nil => exact absurd found noMembers
      | cons base more => exact .inr ⟨base, more, rfl⟩

theorem Normal.noNullType (normal : n.Normal options) {types values : List Json}
    (several : n.type = .arr types) (listed : n.enum = .arr values) (null : .null ∈ values) :
    .str "null" ∉ types := by
  intro named
  have admits : Rule.admitsNull n = true := by
    have some : values.any Json.isNull = true := List.any_eq_true.mpr ⟨.null, null, rfl⟩
    simp [Rule.admitsNull, listed, some]
  have other := normal.types types several admits _ named
  simp [Json.isStr] at other

theorem Normal.form (normal : n.Normal options) : n.NormalForm options where
  object := normal.object
  array := normal.array
  single _ := normal.unbounded
  positions _ _ := normal.positions
  bases := normal.bases_listed
  const := normal.const
  legacyId := normal.legacyId
  severalTypes := normal.several
  noNullType _ _ := normal.noNullType
  description := normal.whole

end Node

namespace Graph

/-- Every node below the root is in normal form once the graph is normalized. -/
theorem normalize_normalForm {fileName : Option String}
    (typed : ∀ i, g.Below root i → (g.node i).Typed)
    (run : normalize options fileName root g = .ok () h) :
    ∀ i, h.Below root i → (h.node i).NormalForm options :=
  fun i below => (normal_of_normalize typed run i below).form

/-- A tuple that is cut short and loses its second element, an array without bounds that leads back
to it, and an enumeration that says in its type what its values say too. -/
def tangled : Graph := ⟨#[
  { type := .str "array", minItems := .int 1, maxItems := .int 1, description := .str "*/*/"
    items := some (.positions [.node 1, .node 2]), additionalItems := some (.bool true) },
  { type := .arr [.str "array", .str "any"], items := some (.each (.node 0)), maxItems := .int 90
    bases := some (.one (.node 3)) },
  { legacyId := .str "lost", required := .bool false },
  { type := .arr [.str "null", .str "string"], enum := .arr [.null, .str "a"]
    legacyId := .str "kept", properties := some [("up", .node 0), ("again", .node 1)] }]⟩

theorem typed_tangled : ∀ i, tangled.Below 0 i → (tangled.node i).Typed := by
  rintro i ⟨inside, _⟩
  match i, inside with
  | 0, _ => exact ⟨trivial, .inr rfl, .inr rfl, .inr rfl⟩
  | 1, _ => exact ⟨by decide, .inl rfl, .inl rfl, .inr rfl⟩
  | 2, _ => exact ⟨trivial, .inl rfl, .inl rfl, .inl rfl⟩
  | 3, _ => exact ⟨by decide, .inl rfl, .inl rfl, .inl rfl⟩
  | k + 4, beyond => exact absurd beyond (Nat.not_lt.mpr (Nat.le_add_left 4 k))

theorem normalize_tangled_normalForm :
    (∀ i, tangled.Below 0 i → (tangled.node i).Typed) ∧
      ∃ h, normalize {} (some "t.json") 0 tangled = .ok () h ∧
        ∀ i, h.Below 0 i → (h.node i).NormalForm {} := by
  obtain ⟨_, h, run⟩ := exists_of_succeeds
    (show succeeds (normalize {} (some "t.json") 0 tangled) = true by decide +kernel)
  exact ⟨typed_tangled, h, run, normalize_normalForm typed_tangled run⟩

end Graph
end LinkedSchema
