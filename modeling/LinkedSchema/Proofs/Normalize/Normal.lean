import LinkedSchema.Proofs.Normalize.Edges
import LinkedSchema.Proofs.Results
/-! The normal form that a pass of the rules brings a node to, and that another pass leaves alone. -/
namespace LinkedSchema

variable {n m : Node} {options : Options}

/-- What the rules for types, required names, additional properties and identifiers bring about. -/
structure Node.Headed (n : Node) : Prop where
  types : ∀ types, n.type = .arr types → Rule.admitsNull n = true →
    ∀ v ∈ types, v.isStr "null" = false
  several : ∀ v, n.type ≠ .arr [v]
  required : n.isObjectLike = true → n.required.isNull = false
  listed : n.required ≠ .bool false
  additional : n.isObjectLike = true → n.additionalProperties.isSome ∨ n.patternProperties.isSome
  legacyId : n.legacyId.truthy = false

/-- What the rules for the bounds of arrays bring about. -/
structure Node.Bounded (options : Options) (n : Node) : Prop where
  minItems : n.isArrayLike = true → n.minItems.int?.isSome
  stripped : options.stripItemBounds = true → n.isArrayLike = true →
    n.minItems = .int 0 ∧ n.maxItems = .null
  narrow : n.isArrayLike = true → Rule.IsNarrow options n

/-- What holds of a node after a pass of all rules. -/
structure Node.Normal (options : Options) (n : Node) : Prop
    extends Node.Headed n, Node.Bounded options n, Rule.HasPlaces n where
  whole : Rule.HasWholeDescription n
  documented : n.isArrayLike = true → Rule.IsDocumented n
  bases : n.bases ≠ some .null ∧ n.bases ≠ some (.many []) ∧ ∀ base, n.bases ≠ some (.one base)
  const : n.const = none

namespace Rule

/-- What a pass makes of a node before it comes to the identifiers. -/
def withDefaults (n : Node) : Node :=
  defaultAdditionalProperties (listRequired (defaultRequired (unwrapSingleType (dropNullType n))))

theorem withDefaults_spec (n : Node) :
    ∃ type required additionalProperties,
      withDefaults n = { n with type, required, additionalProperties } ∧
        (n.type.NamesTypes →
          Node.Headed { n with type, required, additionalProperties, legacyId := .null }) ∧
        (Node.isObjectLike { n with type } = true → required = n.requiredNames) := by
  obtain ⟨type₁, h₁, names₁, types⟩ := dropNullType_spec n
  obtain ⟨type₂, h₂, unwrapped⟩ := unwrapSingleType_spec { n with type := type₁ }
  obtain ⟨required₁, h₃, given⟩ := defaultRequired_spec { n with type := type₂ }
  obtain ⟨required₂, h₄, notFalse, kept⟩ :=
    listRequired_spec { n with type := type₂, required := required₁ }
  obtain ⟨additional, h₅, set, _⟩ :=
    defaultAdditionalProperties_spec { n with type := type₂, required := required₂ }
  have steps : withDefaults n =
      { n with type := type₂, required := required₂, additionalProperties := additional } := by
    rw [withDefaults, h₁, h₂, h₃, h₄, h₅]
  refine ⟨type₂, required₂, additional, steps, fun names => ?_, fun object => ?_⟩
  · obtain ⟨several, listed⟩ := unwrapped (names₁ names)
    exact {
      types := fun left same admits => types left (listed left same) admits
      several := several
      required := fun object => kept (given object)
      listed := notFalse
      additional := set
      legacyId := rfl }
  · have listed := listRequired_default (n := { n with type := type₂ }) object
    rwa [h₃, h₄] at listed

/-- The steps of a pass, of which four may fail. -/
theorem pass_all_ok (made : pass all options n = .ok m) : ∃ identified described bounded expanded,
    moveLegacyId (withDefaults n) = .ok identified ∧
    documentBounds (escapeDescription identified) = .ok described ∧
    dropWideMaxItems options (defaultMinItems (stripBounds options described)) = .ok bounded ∧
    expandItems bounded = .ok expanded ∧
    m = constToEnum (listBases (dropEmptyBases expanded)) := by
  obtain ⟨identified, h₁, made⟩ := bind_ok (show (moveLegacyId (withDefaults n)).bind
    (pass (all.drop 6) options) = .ok m from made)
  obtain ⟨described, h₂, made⟩ := bind_ok (show (documentBounds (escapeDescription identified)).bind
    (pass (all.drop 8) options) = .ok m from made)
  obtain ⟨bounded, h₃, made⟩ := bind_ok (show (dropWideMaxItems options
    (defaultMinItems (stripBounds options described))).bind
      (pass (all.drop 11) options) = .ok m from made)
  obtain ⟨expanded, h₄, made⟩ := bind_ok (show (expandItems bounded).bind
    (pass (all.drop 12) options) = .ok m from made)
  exact ⟨identified, described, bounded, expanded, h₁, h₂, h₃, h₄, (Except.ok.inj made).symm⟩

theorem identified_spec (made : moveLegacyId (withDefaults n) = .ok m) :
    ∃ type required additionalProperties id legacyId,
      m = { n with type, required, additionalProperties, id, legacyId } ∧
        (n.type.NamesTypes → m.Headed) := by
  obtain ⟨type, required, additional, steps, headed, _⟩ := withDefaults_spec n
  rw [steps] at made
  obtain ⟨id, legacyId, rfl, moved⟩ := moveLegacyId_spec made
  exact ⟨type, required, additional, id, legacyId, rfl, fun names =>
    { headed names with legacyId := moved }⟩

/-- Bounds that are kept or no longer count call for no other lines. -/
theorem boundLines_subset (lower : m.minItems = n.minItems ∨ m.minItems.truthy = false)
    (upper : m.maxItems = n.maxItems ∨ m.maxItems.isNull = true) :
    boundLines m ⊆ boundLines n := by
  intro line hl
  simp only [boundLines, List.mem_append] at hl ⊢
  rcases hl with least | most
  · rcases lower with same | absent
    · exact .inl (same ▸ least)
    · simp [absent] at least
  · rcases upper with same | absent
    · exact .inr (same ▸ most)
    · simp [absent] at most

/-- The rules for bounds write no line that was not documented before. -/
theorem bounded_spec (least : n.minItems.IsBound) (most : n.maxItems.IsBound)
    (made : dropWideMaxItems options (defaultMinItems (stripBounds options n)) = .ok m) :
    ∃ minItems maxItems, m = { n with minItems, maxItems } ∧ m.Bounded options ∧
      boundLines m ⊆ boundLines n := by
  obtain ⟨lower₁, upper₁, h₁, strips, lowerKept, upperKept⟩ := stripBounds_spec options n
  obtain ⟨lower₂, h₂, integer, lowerSet, defaults⟩ :=
    defaultMinItems_spec { n with minItems := lower₁, maxItems := upper₁ }
  have steps : defaultMinItems (stripBounds options n) =
      { n with minItems := lower₂, maxItems := upper₁ } := by
    rw [h₁, h₂]
  rw [steps] at made
  have lowerBound : lower₂.IsBound := by
    rcases lowerSet with rfl | rfl
    · rcases lowerKept with rfl | rfl
      · exact least
      · exact .inl rfl
    · exact .inr rfl
  have upperBound : upper₁.IsBound := by
    rcases upperKept with rfl | rfl
    · exact most
    · exact .inl rfl
  obtain ⟨upper₂, rfl, upperSet, narrow⟩ := dropWideMaxItems_spec lowerBound upperBound made
  refine ⟨lower₂, upper₂, rfl, ⟨integer, fun strip array => ?_, narrow⟩, ?_⟩
  · obtain ⟨absent, gone⟩ := strips strip array
    refine ⟨defaults array absent, ?_⟩
    rcases upperSet with same | dropped
    · exact same.trans gone
    · exact dropped
  · have lower : lower₂ = n.minItems ∨ lower₂.truthy = false := by
      rcases lowerSet with same | rfl
      · rcases lowerKept with old | absent
        · exact .inl (same.trans old)
        · exact .inr (by rw [same, absent]; rfl)
      · exact .inr rfl
    have upper : upper₂ = n.maxItems ∨ upper₂.isNull = true := by
      rcases upperSet with same | rfl
      · rcases upperKept with old | absent
        · exact .inl (same.trans old)
        · exact .inr (by rw [same, absent]; rfl)
      · exact .inr rfl
    exact boundLines_subset lower upper

theorem closing_spec (n : Node) :
    ∃ bases enum, constToEnum (listBases (dropEmptyBases n)) =
        { n with bases, enum, const := none } ∧
      (bases ≠ some .null ∧ bases ≠ some (.many []) ∧ ∀ base, bases ≠ some (.one base)) ∧
      (admitsNull { n with bases, enum, const := none } = true → admitsNull n = true) := by
  obtain ⟨bases₁, h₁, noNull, noMembers, _⟩ := dropEmptyBases_spec n
  obtain ⟨bases₂, h₂, several, keepsNull, keepsMembers, _⟩ :=
    listBases_spec { n with bases := bases₁ }
  obtain ⟨enum, h₃, admits⟩ := constToEnum_spec { n with bases := bases₂ }
  have steps : constToEnum (listBases (dropEmptyBases n)) =
      { n with bases := bases₂, enum, const := none } := by
    rw [h₁, h₂, h₃]
  exact ⟨bases₂, enum, steps, ⟨keepsNull noNull, keepsMembers noMembers, several⟩, admits⟩

/-- From the identifiers on, a pass writes none of the keywords that tell whether a node describes
objects, nor the required names. -/
theorem pass_writes (made : pass all options n = .ok m) :
    ∃ id legacyId description minItems maxItems items additionalItems bases enum,
      moveLegacyId (withDefaults n) = .ok { withDefaults n with id, legacyId } ∧
      m = { withDefaults n with
        id, legacyId, description, minItems, maxItems, items, additionalItems, bases, enum
        const := none } := by
  obtain ⟨identified, described, bounded, expanded, move, document, drop, expand, rfl⟩ :=
    pass_all_ok made
  obtain ⟨id, legacyId, rfl, _⟩ := moveLegacyId_spec move
  obtain ⟨escaped, escape⟩ := escapeDescription_writes { withDefaults n with id, legacyId }
  rw [escape] at document
  obtain ⟨description, rfl⟩ := documentBounds_writes document
  obtain ⟨lower₁, upper₁, strip, _⟩ :=
    stripBounds_spec options { withDefaults n with id, legacyId, description }
  obtain ⟨lower₂, default, _⟩ := defaultMinItems_spec
    { withDefaults n with id, legacyId, description, minItems := lower₁, maxItems := upper₁ }
  rw [strip, default] at drop
  obtain ⟨upper₂, rfl⟩ := dropWideMaxItems_writes drop
  obtain ⟨items, additionalItems, rfl, _⟩ := expandItems_spec expand
  obtain ⟨bases, enum, close, _⟩ := closing_spec
    { withDefaults n with
      id, legacyId, description, minItems := lower₂, maxItems := upper₂, items, additionalItems }
  exact ⟨id, legacyId, description, lower₂, upper₂, items, additionalItems, bases, enum, move,
    close⟩

theorem pass_normal (typed : n.Typed) (made : pass all options n = .ok m) : m.Normal options := by
  obtain ⟨identified, described, bounded, expanded, move, document, drop, expand, rfl⟩ :=
    pass_all_ok made
  obtain ⟨type, required, additional, id, legacyId, rfl, headed⟩ := identified_spec move
  replace headed := headed typed.type
  obtain ⟨description₁, h₁, filled₁, whole₁⟩ := escapeDescription_spec
    (n := { n with type, required, additionalProperties := additional, id, legacyId })
    typed.description
  rw [h₁] at document
  obtain ⟨description₂, rfl, _, whole₂, documented⟩ := documentBounds_spec
    (n := { n with
      type, required, additionalProperties := additional, id, legacyId, description := description₁ })
    filled₁ typed.minItems typed.maxItems whole₁ document
  obtain ⟨lower, upper, rfl, bounds, fewer⟩ := bounded_spec
    (n := { n with
      type, required, additionalProperties := additional, id, legacyId, description := description₂ })
    typed.minItems typed.maxItems drop
  obtain ⟨items, additionalItems, rfl, alike, places, _, _⟩ := expandItems_spec expand
  obtain ⟨bases, enum, h₂, listed, admits⟩ := closing_spec
    { n with
      type, required, additionalProperties := additional, id, legacyId, description := description₂
      minItems := lower, maxItems := upper, items, additionalItems }
  rw [h₂]
  -- The items are others, but they are there whenever they were.
  have array : Node.isArrayLike { n with type, items } = Node.isArrayLike { n with type } := by
    simp only [Node.isArrayLike, alike, Node.hasType]
  have was : Node.isArrayLike { n with type, items } = true →
      Node.isArrayLike { n with type } = true := fun h => array ▸ h
  exact {
    types := fun left same now => headed.types left same (admits now)
    several := headed.several
    required := headed.required
    listed := headed.listed
    additional := headed.additional
    legacyId := headed.legacyId
    minItems := fun h => bounds.minItems (was h)
    stripped := fun strip h => bounds.stripped strip (was h)
    narrow := fun h => bounds.narrow (was h)
    single := places.single
    places := places.places
    whole := whole₂
    documented := fun h line hl => documented (was h) line (fewer hl)
    bases := listed
    const := rfl }

theorem escapeDescription_of_whole (whole : HasWholeDescription n) : escapeDescription n = n := by
  unfold escapeDescription
  split
  · rename_i text given
    rw [splitCommentEnds_eq_self (whole text given), String.ofList_toList, ← given]
  · rfl

/-- Items that have their places stay as they are. -/
theorem expandItems_of_places (places : HasPlaces n) : expandItems n = .ok n := by
  have repeated : repeatItem n = .ok n := by
    unfold repeatItem
    split
    · rename_i item found
      obtain ⟨upper, lower⟩ := places.single item found
      rw [if_neg (by simp [upper, lower])]
    · rfl
  have truncated : truncateItems n = n := by
    unfold truncateItems
    split
    · rename_i items upper found bound
      rw [List.take_of_length_le (places.places items upper found bound), ← found]
    · rfl
  rw [expandItems, repeated]
  exact congrArg Except.ok truncated

theorem documentBounds_of_documented (documented : n.isArrayLike = true → IsDocumented n) :
    documentBounds n = .ok n := by
  unfold documentBounds
  split
  · rfl
  · rename_i needed
    simp only [Bool.or_eq_true, Bool.not_eq_true', not_or, Bool.not_eq_false] at needed
    have stands := documented needed.1
    cases lines : boundLines n with
    | nil => simp [lines] at needed
    | cons first more =>
      obtain ⟨text, given, _⟩ := stands first (by simp [lines])
      have complete : (boundLines n).filter (!(linesOf text).contains ·) = [] := by
        rw [List.filter_eq_nil_iff]
        intro line hl
        obtain ⟨text', given', inText⟩ := stands line hl
        rw [given, Json.str.injEq] at given'
        simpa [given'] using inText
      rw [descriptionText?, given, ← lines]
      simp only [complete, List.isEmpty_nil, if_true]

/-! A node in normal form is left as it is by every rule, but for a bound that one rule takes away
and the next one puts back. -/

section

variable (normal : n.Normal options)
include normal

theorem dropNullType_normal : dropNullType n = n := by
  unfold dropNullType
  split
  · rename_i types list
    split
    · rename_i found
      obtain ⟨admits, some⟩ := Bool.and_eq_true_iff.mp found
      obtain ⟨v, hv, null⟩ := List.any_eq_true.mp some
      rw [normal.types types list admits v hv] at null
      cases null
    · rfl
  · rfl

theorem unwrapSingleType_normal : unwrapSingleType n = n := by
  unfold unwrapSingleType
  split
  · rename_i type single
    exact absurd single (normal.several type)
  · rfl

theorem defaultRequired_normal : defaultRequired n = n := by
  unfold defaultRequired
  split
  · rename_i needed
    obtain ⟨object, absent⟩ := Bool.and_eq_true_iff.mp needed
    rw [normal.required object] at absent
    cases absent
  · rfl

theorem listRequired_normal : listRequired n = n := by
  unfold listRequired
  split
  · rename_i notListed
    exact absurd notListed normal.listed
  · rfl

theorem defaultAdditionalProperties_normal : defaultAdditionalProperties n = n := by
  unfold defaultAdditionalProperties
  split
  · rename_i needed
    simp only [Bool.and_eq_true, Option.isNone_iff_eq_none] at needed
    obtain ⟨⟨object, noAdditional⟩, noPatterns⟩ := needed
    have given := normal.additional object
    simp [noAdditional, noPatterns] at given
  · rfl

theorem moveLegacyId_normal : moveLegacyId n = .ok n := by
  unfold moveLegacyId
  rw [if_neg (by simp [normal.legacyId])]

/-- Where the bounds are taken away, there is no upper one, and the lower one is the default that
the next rule puts back. -/
theorem bounds_normal : defaultMinItems (stripBounds options n) = n := by
  have given : defaultMinItems n = n := by
    unfold defaultMinItems
    split
    · rename_i needed
      obtain ⟨array, absent⟩ := Bool.and_eq_true_iff.mp needed
      have set := normal.minItems array
      rw [Option.isNone_iff_eq_none.mp absent] at set
      cases set
    · rfl
  unfold stripBounds
  split
  · rename_i needed
    obtain ⟨strip, array⟩ := Bool.and_eq_true_iff.mp needed
    obtain ⟨lower, upper⟩ := normal.stripped strip array
    have array' : Node.isArrayLike { n with minItems := .null, maxItems := .null } = true := array
    unfold defaultMinItems
    rw [if_pos (by rw [array']; rfl)]
    cases n
    cases lower
    cases upper
    rfl
  · exact given

theorem dropWideMaxItems_normal : dropWideMaxItems options n = .ok n := by
  unfold dropWideMaxItems
  split
  · rfl
  · rename_i needed
    simp only [Bool.or_eq_true, Bool.not_eq_true', not_or, Bool.not_eq_false] at needed
    obtain ⟨array, bounded⟩ := needed
    rcases normal.narrow array with absent | ⟨upper, lower, hu, hl, narrow⟩
    · rw [absent] at bounded
      exact absurd rfl bounded
    · rw [number_of_int hu, number_of_int hl]
      simp only [Number.sub?, less_int, decide_eq_true_eq]
      rw [if_neg (Int.not_lt.mpr narrow)]

theorem dropEmptyBases_normal : dropEmptyBases n = n := by
  obtain ⟨noNull, noMembers, _⟩ := normal.bases
  unfold dropEmptyBases
  split
  · rename_i found
    exact absurd found noNull
  · rename_i found
    exact absurd found noMembers
  · rfl

theorem listBases_normal : listBases n = n := by
  unfold listBases
  split
  · rename_i base found
    exact absurd found (normal.bases.2.2 base)
  · rfl

theorem constToEnum_normal : constToEnum n = n := by
  unfold constToEnum
  split
  · rename_i v found
    rw [normal.const] at found
    cases found
  · rfl

/-- Another pass leaves a node in normal form alone, and keeps its edges on the way. -/
theorem steady_normal : Steady options all n n := by
  have stay : ∀ {rule : Rule} {rules : List Rule}, rule.apply options n = .ok n →
      Steady options rules n n → Steady options (rule :: rules) n n :=
    fun same rest => ⟨n, same, rfl, rest⟩
  have last : Steady options (all.drop 10) n n := by
    refine stay (dropWideMaxItems_normal normal) ?_
    refine stay (expandItems_of_places normal.toHasPlaces) ?_
    refine stay (congrArg Except.ok (dropEmptyBases_normal normal)) ?_
    refine stay (congrArg Except.ok (listBases_normal normal)) ?_
    exact stay (congrArg Except.ok (constToEnum_normal normal)) rfl
  have bounds : Steady options (all.drop 8) n n :=
    ⟨stripBounds options n, rfl, successors_stripBounds,
      n, congrArg Except.ok (bounds_normal normal), successors_stripBounds.symm, last⟩
  refine stay (congrArg Except.ok (dropNullType_normal normal)) ?_
  refine stay (congrArg Except.ok (unwrapSingleType_normal normal)) ?_
  refine stay (congrArg Except.ok (defaultRequired_normal normal)) ?_
  refine stay (congrArg Except.ok (listRequired_normal normal)) ?_
  refine stay (congrArg Except.ok (defaultAdditionalProperties_normal normal)) ?_
  refine stay (moveLegacyId_normal normal) ?_
  refine stay (congrArg Except.ok (escapeDescription_of_whole normal.whole)) ?_
  exact stay (documentBounds_of_documented normal.documented) bounds

end

end Rule
end LinkedSchema
