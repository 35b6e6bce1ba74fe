import LinkedSchema.Proofs.Normalize.Descriptions
import LinkedSchema.Proofs.Normalize.Passes
import LinkedSchema.Proofs.Schema.Fields
/-! What each rule writes: which fields it may change, and what holds of them afterwards. -/
namespace LinkedSchema

variable {n m : Node} {options : Options}

/-- Fields of the types that they are declared with. -/
structure Node.Typed (n : Node) : Prop where
  type : n.type.NamesTypes
  description : n.description = .null ∨ n.description.isText
  minItems : n.minItems.IsBound
  maxItems : n.maxItems.IsBound

/-- What the required names become at a node that describes objects: an empty list if they are absent
or false, and otherwise what they were. -/
def Node.requiredNames (n : Node) : Json :=
  match n.required with
  | .null | .bool false => .arr []
  | v => v

namespace Rule

theorem dropNullType_spec (n : Node) :
    ∃ type, dropNullType n = { n with type } ∧ (n.type.NamesTypes → type.NamesTypes) ∧
      ∀ types, type = .arr types → admitsNull n → ∀ v ∈ types, v.isStr "null" = false := by
  unfold dropNullType
  split
  · rename_i types list
    rw [list]
    split
    · refine ⟨_, rfl, fun names v hv => names v (List.mem_filter.mp hv).1, ?_⟩
      intro left same _ v hv
      cases same
      simpa using (List.mem_filter.mp hv).2
    · rename_i unneeded
      refine ⟨n.type, rfl, fun names => list ▸ names, ?_⟩
      intro left same admits v hv
      rw [list] at same
      cases same
      by_contra other
      refine unneeded ?_
      rw [admits, Bool.true_and]
      exact List.any_eq_true.mpr ⟨v, hv, by simpa using other⟩
  · rename_i noList
    exact ⟨n.type, rfl, id, fun types same => (noList types same).elim⟩

theorem unwrapSingleType_spec (n : Node) :
    ∃ type, unwrapSingleType n = { n with type } ∧ (n.type.NamesTypes →
      (∀ v, type ≠ .arr [v]) ∧ ∀ types, type = .arr types → n.type = .arr types) := by
  unfold unwrapSingleType
  split
  · rename_i type single
    refine ⟨type, rfl, fun names => ?_⟩
    rw [single] at names
    have text : type.isText = true := names type List.mem_cons_self
    cases type with
    | str s => exact ⟨nofun, nofun⟩
    | _ => cases text
  · rename_i several
    exact ⟨n.type, rfl, fun _ => ⟨several, fun _ same => same⟩⟩

theorem defaultRequired_spec (n : Node) :
    ∃ required, defaultRequired n = { n with required } ∧
      (n.isObjectLike = true → required.isNull = false) := by
  unfold defaultRequired
  split
  · exact ⟨.arr [], rfl, fun _ => rfl⟩
  · rename_i unneeded
    refine ⟨n.required, rfl, fun object => ?_⟩
    simpa [object] using unneeded

theorem listRequired_spec (n : Node) :
    ∃ required, listRequired n = { n with required } ∧ required ≠ .bool false ∧
      (n.required.isNull = false → required.isNull = false) := by
  unfold listRequired
  split
  · exact ⟨.arr [], rfl, nofun, fun _ => rfl⟩
  · rename_i other
    exact ⟨n.required, rfl, other, id⟩

theorem listRequired_default (object : n.isObjectLike = true) :
    (listRequired (defaultRequired n)).required = n.requiredNames := by
  cases given : n.required with
  | null => simp [defaultRequired, listRequired, Node.requiredNames, object, given, Json.isNull]
  | bool b =>
    cases b <;> simp [defaultRequired, listRequired, Node.requiredNames, given, Json.isNull]
  | _ => simp [defaultRequired, listRequired, Node.requiredNames, given, Json.isNull]

theorem defaultAdditionalProperties_spec (n : Node) :
    ∃ additionalProperties, defaultAdditionalProperties n = { n with additionalProperties } ∧
      (n.isObjectLike = true → additionalProperties.isSome ∨ n.patternProperties.isSome) ∧
      Visit.ofSingle additionalProperties = Visit.ofSingle n.additionalProperties := by
  unfold defaultAdditionalProperties
  split
  · rename_i needed
    simp only [Bool.and_eq_true, Option.isNone_iff_eq_none] at needed
    refine ⟨some (.bool true), rfl, fun _ => .inl rfl, ?_⟩
    rw [needed.1.2]
    rfl
  · rename_i unneeded
    refine ⟨n.additionalProperties, rfl, fun object => ?_, rfl⟩
    simp only [object, Bool.true_and, Bool.and_eq_true, not_and, Option.isNone_iff_eq_none] at unneeded
    cases additional : n.additionalProperties with
    | some s => exact .inl rfl
    | none => exact .inr (Option.isSome_iff_ne_none.mpr (unneeded additional))

theorem moveLegacyId_spec (made : moveLegacyId n = .ok m) :
    ∃ id legacyId, m = { n with id, legacyId } ∧ legacyId.truthy = false := by
  unfold moveLegacyId at made
  split at made
  · split at made
    · cases made
    · cases made
      exact ⟨_, _, rfl, rfl⟩
  · rename_i absent
    cases made
    exact ⟨n.id, n.legacyId, rfl, by simpa using absent⟩

/-- A description that ends no comment, if it is a text. -/
def HasWholeDescription (n : Node) : Prop :=
  ∀ text, n.description = .str text → ¬ EndsComment text.toList

/-- All lines that document the bounds of an array stand in its description. -/
def IsDocumented (n : Node) : Prop :=
  ∀ line ∈ boundLines n, ∃ text, n.description = .str text ∧ line ∈ linesOf text

theorem escapeDescription_writes (n : Node) :
    ∃ description, escapeDescription n = { n with description } := by
  unfold escapeDescription
  split
  · exact ⟨_, rfl⟩
  · exact ⟨n.description, rfl⟩

theorem escapeDescription_spec (typed : n.description = .null ∨ n.description.isText) :
    ∃ description, escapeDescription n = { n with description } ∧
      (description = .null ∨ description.isText) ∧
      HasWholeDescription { n with description } := by
  unfold escapeDescription
  split
  · rename_i text given
    refine ⟨_, rfl, .inr rfl, ?_⟩
    intro split' same
    cases same
    rw [String.toList_ofList]
    exact not_endsComment_split (by decide) (by decide) _
  · rename_i noText
    exact ⟨n.description, rfl, typed, fun text same => (noText text same).elim⟩

theorem descriptionText_eq {text : String} (typed : n.description = .null ∨ n.description.isText)
    (given : descriptionText? n = some text) :
    n.description = .str text ∨ (n.description = .null ∧ text = "") := by
  unfold descriptionText? at given
  rcases typed with absent | filled
  · rw [absent] at given
    cases given
    exact .inr ⟨absent, rfl⟩
  · cases description : n.description with
    | str s =>
      rw [description] at given
      cases given
      exact .inl rfl
    | _ => rw [description] at filled; cases filled

theorem documentBounds_writes (made : documentBounds n = .ok m) :
    ∃ description, m = { n with description } := by
  unfold documentBounds at made
  split at made
  · cases made
    exact ⟨n.description, rfl⟩
  · split at made
    · cases made
    · dsimp only at made
      split at made
      · cases made
        exact ⟨n.description, rfl⟩
      · cases made
        exact ⟨_, rfl⟩

theorem documentBounds_spec (filled : n.description = .null ∨ n.description.isText)
    (lower : n.minItems.IsBound) (upper : n.maxItems.IsBound) (whole : HasWholeDescription n)
    (made : documentBounds n = .ok m) :
    ∃ description, m = { n with description } ∧ (description = .null ∨ description.isText) ∧
      HasWholeDescription { n with description } ∧
      (n.isArrayLike = true → IsDocumented { n with description }) := by
  have safe := isSafe_boundLines lower upper
  unfold documentBounds at made
  split at made
  · rename_i nothing
    cases made
    refine ⟨n.description, rfl, filled, whole, fun array line hl => ?_⟩
    simp only [array, Bool.not_true, Bool.false_or, List.isEmpty_iff] at nothing
    change line ∈ boundLines n at hl
    rw [nothing] at hl
    cases hl
  · split at made
    · cases made
    · rename_i text given
      have known := descriptionText_eq filled given
      dsimp only at made
      split at made
      · rename_i complete
        cases made
        refine ⟨n.description, rfl, filled, whole, fun array line hl => ?_⟩
        have stands : line ∈ linesOf text := by
          by_contra absent
          have missing : line ∈ (boundLines n).filter (!(linesOf text).contains ·) :=
            List.mem_filter.mpr ⟨hl, by simpa using absent⟩
          rw [List.isEmpty_iff.mp complete] at missing
          cases missing
        rcases known with given | ⟨_, rfl⟩
        · exact ⟨text, given, stands⟩
        · cases stands
      · cases made
        have kept : ¬ EndsComment text.toList := by
          rcases known with given | ⟨_, rfl⟩
          · exact whole text given
          · exact not_endsComment_nil
        refine ⟨_, rfl, .inr rfl, ?_, fun array line hl => ⟨_, rfl, ?_⟩⟩
        · intro longer same
          cases same
          exact not_endsComment_appendLines kept fun l hl => (safe l (List.mem_filter.mp hl).1).2
        · have each : ∀ l ∈ (boundLines n).filter (!(linesOf text).contains ·), IsLine l :=
            fun l hl => isLine_of_isSafe (safe l (List.mem_filter.mp hl).1)
          obtain ⟨between, lines⟩ := linesOf_appendLines each
          rw [lines, List.mem_append, List.mem_append, List.mem_filter]
          by_cases stands : line ∈ linesOf text
          · exact .inl (.inl stands)
          · exact .inr ⟨hl, by simpa using stands⟩

theorem stripBounds_spec (options : Options) (n : Node) :
    ∃ minItems maxItems, stripBounds options n = { n with minItems, maxItems } ∧
      (options.stripItemBounds = true → n.isArrayLike = true →
        minItems = .null ∧ maxItems = .null) ∧
      (minItems = n.minItems ∨ minItems = .null) ∧ (maxItems = n.maxItems ∨ maxItems = .null) := by
  unfold stripBounds
  split
  · exact ⟨.null, .null, rfl, fun _ _ => ⟨rfl, rfl⟩, .inr rfl, .inr rfl⟩
  · rename_i unneeded
    refine ⟨n.minItems, n.maxItems, rfl, fun strips array => ?_, .inl rfl, .inl rfl⟩
    simp [strips, array] at unneeded

theorem defaultMinItems_spec (n : Node) :
    ∃ minItems, defaultMinItems n = { n with minItems } ∧
      (n.isArrayLike = true → minItems.int?.isSome) ∧
      (minItems = n.minItems ∨ minItems = .int 0) ∧
      (n.isArrayLike = true → n.minItems = .null → minItems = .int 0) := by
  unfold defaultMinItems
  split
  · exact ⟨.int 0, rfl, fun _ => rfl, .inr rfl, fun _ _ => rfl⟩
  · rename_i unneeded
    refine ⟨n.minItems, rfl, fun array => ?_, .inl rfl, fun array absent => ?_⟩
    · simpa [array, Option.isSome_iff_ne_none] using unneeded
    · simp [array, absent, Json.int?] at unneeded

theorem number_of_int {v : Json} {k : Int} (integer : v.int? = some k) :
    v.number? = some (.int k) := by
  cases v <;> cases integer <;> rfl

theorem less_int {j k : Int} : Number.less (.int j) (.int k) = decide (j < k) := by
  simp [Number.less, Number.side, Number.fraction]

theorem orZero_isBound {v : Json} (bound : v.IsBound) : ∃ k, v.orZero.int? = some k := by
  unfold Json.orZero
  split
  · rename_i given
    rcases bound with rfl | integer
    · cases given
    · exact Option.isSome_iff_exists.mp integer
  · exact ⟨0, rfl⟩

/-- The bounds of an array, if there is an upper one, are no further apart than the options
allow. -/
def IsNarrow (options : Options) (n : Node) : Prop :=
  n.maxItems = .null ∨ ∃ upper lower, n.maxItems.int? = some upper ∧
    n.minItems.orZero.int? = some lower ∧ upper - lower ≤ options.maxTupleSize

theorem dropWideMaxItems_writes (made : dropWideMaxItems options n = .ok m) :
    ∃ maxItems, m = { n with maxItems } := by
  unfold dropWideMaxItems at made
  split at made
  · cases made
    exact ⟨n.maxItems, rfl⟩
  · split at made
    · split at made
      · split at made
        · cases made
          exact ⟨.null, rfl⟩
        · cases made
          exact ⟨n.maxItems, rfl⟩
      · cases made
    · cases made

theorem dropWideMaxItems_spec (lower : n.minItems.IsBound) (upper : n.maxItems.IsBound)
    (made : dropWideMaxItems options n = .ok m) :
    ∃ maxItems, m = { n with maxItems } ∧ (maxItems = n.maxItems ∨ maxItems = .null) ∧
      (n.isArrayLike = true → IsNarrow options { n with maxItems }) := by
  unfold dropWideMaxItems at made
  split at made
  · rename_i unbounded
    cases made
    refine ⟨n.maxItems, rfl, .inl rfl, fun array => .inl ?_⟩
    have absent : n.maxItems.isNull = true := by simpa [array] using unbounded
    cases given : n.maxItems <;> rw [given] at absent <;> first | rfl | cases absent
  · rename_i bounded
    have given : n.maxItems ≠ .null := by
      intro absent
      simp [absent, Json.isNull] at bounded
    obtain ⟨x, hx⟩ := Option.isSome_iff_exists.mp (upper.resolve_left given)
    obtain ⟨y, hy⟩ := orZero_isBound lower
    rw [number_of_int hx, number_of_int hy] at made
    simp only [Number.sub?, less_int, decide_eq_true_eq] at made
    split at made
    · cases made
      exact ⟨.null, rfl, .inr rfl, fun _ => .inl rfl⟩
    · rename_i narrow
      cases made
      exact ⟨n.maxItems, rfl, .inl rfl, fun _ => .inr ⟨x, y, hx, hy, Int.not_lt.mp narrow⟩⟩

/-- Items that the tuple rule has nothing to do for. -/
structure HasPlaces (n : Node) : Prop where
  single : ∀ item, n.items = some (.each item) → upperBound? n = none ∧ lowerBound? n = none
  places : ∀ items upper, n.items = some (.positions items) → upperBound? n = some upper →
    items.length ≤ upper.toNat

theorem truncateItems_spec (n : Node) :
    ∃ items, truncateItems n = { n with items } ∧ items.isSome = n.items.isSome ∧
      (∀ item, items = some (.each item) → n.items = some (.each item)) ∧
      (∀ places upper, items = some (.positions places) → upperBound? n = some upper →
        places.length ≤ upper.toNat) ∧
      ∀ s ∈ (items.map Items.toList).getD [], s ∈ (n.items.map Items.toList).getD [] := by
  unfold truncateItems
  split
  · rename_i items upper found bound
    refine ⟨_, rfl, by rw [found]; rfl, nofun, ?_, ?_⟩
    · intro places least same bound'
      cases same
      rw [bound] at bound'
      cases bound'
      exact List.length_take_le _ _
    · rw [found]
      exact fun s hs => List.mem_of_mem_take hs
  · rename_i other
    refine ⟨n.items, rfl, rfl, fun _ same => same, ?_, fun _ hs => hs⟩
    exact fun places upper found bound => (other places upper found bound).elim

theorem repeatItem_spec (made : repeatItem n = .ok m) :
    ∃ items additionalItems, m = { n with items, additionalItems } ∧
      items.isSome = n.items.isSome ∧
      (∀ item, items = some (.each item) → upperBound? n = none ∧ lowerBound? n = none) ∧
      (∀ s ∈ (items.map Items.toList).getD [], s ∈ (n.items.map Items.toList).getD []) ∧
      ∀ s ∈ additionalItems, s ∈ n.additionalItems ∨ s ∈ (n.items.map Items.toList).getD [] := by
  unfold repeatItem at made
  split at made
  · rename_i item found
    split at made
    · cases counted : placeCount n with
      | error defect =>
        rw [counted] at made
        cases made
      | ok count =>
        rw [counted] at made
        have result : m = if (upperBound? n).isSome then
            { n with items := some (.positions (List.replicate count item)) }
          else
            { n with
              items := some (.positions (List.replicate count item))
              additionalItems := some item } := (Except.ok.inj made).symm
        have among : ∀ s ∈ List.replicate count item, s ∈ (n.items.map Items.toList).getD [] := by
          intro s hs
          rw [found, List.eq_of_mem_replicate hs]
          exact List.mem_cons_self
        have filled : n.items.isSome = true := by rw [found]; rfl
        split at result
        · exact ⟨_, _, result, filled.symm, nofun, among, fun _ hs => .inl hs⟩
        · refine ⟨_, _, result, filled.symm, nofun, among, fun s hs => .inr ?_⟩
          cases hs
          rw [found]
          exact List.mem_cons_self
    · rename_i unbounded
      cases made
      refine ⟨n.items, n.additionalItems, rfl, rfl, fun _ _ => ?_, fun _ hs => hs,
        fun _ hs => .inl hs⟩
      simpa [not_or] using unbounded
  · rename_i other
    cases made
    exact ⟨n.items, n.additionalItems, rfl, rfl, fun item found => (other item found).elim,
      fun _ hs => hs, fun _ hs => .inl hs⟩

theorem expandItems_spec (made : expandItems n = .ok m) :
    ∃ items additionalItems, m = { n with items, additionalItems } ∧
      items.isSome = n.items.isSome ∧ HasPlaces { n with items, additionalItems } ∧
      (∀ s ∈ (items.map Items.toList).getD [], s ∈ (n.items.map Items.toList).getD []) ∧
      ∀ s ∈ additionalItems, s ∈ n.additionalItems ∨ s ∈ (n.items.map Items.toList).getD [] := by
  cases repeated : repeatItem n with
  | error defect =>
    rw [expandItems, repeated] at made
    cases made
  | ok k =>
    rw [expandItems, repeated] at made
    cases made
    obtain ⟨items, additionalItems, rfl, some₁, single, among, further⟩ := repeatItem_spec repeated
    obtain ⟨items', same, some₂, each, places, among'⟩ :=
      truncateItems_spec { n with items, additionalItems }
    refine ⟨items', additionalItems, same, some₂.trans some₁, ⟨?_, places⟩, ?_, further⟩
    · exact fun item found => single item (each item found)
    · exact fun s hs => among s (among' s hs)

theorem dropEmptyBases_spec (n : Node) :
    ∃ bases, dropEmptyBases n = { n with bases } ∧ bases ≠ some .null ∧ bases ≠ some (.many []) ∧
      Visit.ofMembers (bases.map Bases.toList) = Visit.ofMembers (n.bases.map Bases.toList) := by
  unfold dropEmptyBases
  split
  · rename_i found
    exact ⟨none, rfl, nofun, nofun, by rw [found]; rfl⟩
  · rename_i found
    exact ⟨none, rfl, nofun, nofun, by rw [found]; rfl⟩
  · rename_i noNull noMembers
    exact ⟨n.bases, rfl, noNull, noMembers, rfl⟩

theorem listBases_spec (n : Node) :
    ∃ bases, listBases n = { n with bases } ∧ (∀ base, bases ≠ some (.one base)) ∧
      (n.bases ≠ some .null → bases ≠ some .null) ∧
      (n.bases ≠ some (.many []) → bases ≠ some (.many [])) ∧
      Visit.ofMembers (bases.map Bases.toList) = Visit.ofMembers (n.bases.map Bases.toList) := by
  unfold listBases
  split
  · rename_i base found
    exact ⟨some (.many [base]), rfl, nofun, nofun, nofun, by rw [found]; rfl⟩
  · rename_i several
    exact ⟨n.bases, rfl, several, id, id, rfl⟩

/-- A constant that becomes the only value of an enumeration admits a null only if it did so
before. -/
theorem constToEnum_spec (n : Node) :
    ∃ enum, constToEnum n = { n with enum, const := none } ∧
      (admitsNull { n with enum, const := none } = true → admitsNull n = true) := by
  unfold constToEnum
  split
  · rename_i v found
    refine ⟨.arr [v], rfl, fun admits => ?_⟩
    simp [admitsNull] at admits
    simp [admitsNull, found, admits]
  · rename_i absent
    refine ⟨n.enum, by rw [← absent], fun admits => ?_⟩
    simpa [admitsNull, absent] using admits

end Rule
end LinkedSchema
