import LinkedSchema.Proofs.Normalize.Rules
/-! What the rules do not look at. Most rules do the same to a node whatever its bounds and its
description are, and all do whatever its default is. -/
namespace LinkedSchema

variable {n : Node} {options : Options} {rule : Rule} {lower upper description : Json → Json}
  {default : Option Json → Option Json}

namespace Node

/-- The node with other bounds, another description and another default. -/
def altered (lower upper description : Json → Json) (default : Option Json → Option Json)
    (n : Node) : Node :=
  { n with
    minItems := lower n.minItems
    maxItems := upper n.maxItems
    description := description n.description
    default := default n.default }

/-- The node with another description and another default. -/
abbrev redescribed (description : Json → Json) (default : Option Json → Option Json) :
    Node → Node :=
  altered (fun v => v) (fun v => v) description default

end Node

namespace Rule

/-- A rule does the same to a node as to what a change makes of it. -/
def Ignores (rule : Rule) (change : Node → Node) : Prop := ∀ (options : Options) (n : Node),
  rule.apply options (change n) = (rule.apply options n).map change

theorem dropNullType_altered : dropNullType (n.altered lower upper description default) =
    (dropNullType n).altered lower upper description default := by
  have same : admitsNull (n.altered lower upper description default) = admitsNull n := rfl
  unfold dropNullType
  rw [same]
  dsimp only [Node.altered]
  split
  · split <;> rfl
  · rfl

theorem unwrapSingleType_altered : unwrapSingleType (n.altered lower upper description default) =
    (unwrapSingleType n).altered lower upper description default := by
  unfold unwrapSingleType
  dsimp only [Node.altered]
  split <;> rfl

theorem defaultRequired_altered : defaultRequired (n.altered lower upper description default) =
    (defaultRequired n).altered lower upper description default := by
  have same : (n.altered lower upper description default).isObjectLike = n.isObjectLike := rfl
  unfold defaultRequired
  rw [same, apply_ite (Node.altered lower upper description default)]
  rfl

theorem listRequired_altered : listRequired (n.altered lower upper description default) =
    (listRequired n).altered lower upper description default := by
  unfold listRequired
  dsimp only [Node.altered]
  split <;> rfl

theorem defaultAdditionalProperties_altered :
    defaultAdditionalProperties (n.altered lower upper description default) =
      (defaultAdditionalProperties n).altered lower upper description default := by
  have same : (n.altered lower upper description default).isObjectLike = n.isObjectLike := rfl
  unfold defaultAdditionalProperties
  rw [same, apply_ite (Node.altered lower upper description default)]
  rfl

theorem moveLegacyId_altered : moveLegacyId (n.altered lower upper description default) =
    (moveLegacyId n).map (·.altered lower upper description default) := by
  have legacy : (n.altered lower upper description default).legacyId = n.legacyId := rfl
  have own : (n.altered lower upper description default).id = n.id := rfl
  unfold moveLegacyId
  rw [legacy, own]
  split
  · split <;> rfl
  · rfl

theorem escapeDescription_redescribed : escapeDescription (n.redescribed (fun v => v) default) =
    (escapeDescription n).redescribed (fun v => v) default := by
  unfold escapeDescription
  dsimp only [Node.redescribed, Node.altered]
  split <;> rfl

theorem documentBounds_redescribed : documentBounds (n.redescribed (fun v => v) default) =
    (documentBounds n).map (·.redescribed (fun v => v) default) := by
  have array : (n.redescribed (fun v => v) default).isArrayLike = n.isArrayLike := rfl
  have lines : boundLines (n.redescribed (fun v => v) default) = boundLines n := rfl
  have text : descriptionText? (n.redescribed (fun v => v) default) = descriptionText? n := rfl
  unfold documentBounds
  rw [array, lines, text]
  split
  · rfl
  · split
    · rfl
    · dsimp only
      split <;> rfl

theorem stripBounds_redescribed : stripBounds options (n.redescribed description default) =
    (stripBounds options n).redescribed description default := by
  have array : (n.redescribed description default).isArrayLike = n.isArrayLike := rfl
  unfold stripBounds
  rw [array, apply_ite (Node.redescribed description default)]
  rfl

theorem defaultMinItems_redescribed : defaultMinItems (n.redescribed description default) =
    (defaultMinItems n).redescribed description default := by
  have array : (n.redescribed description default).isArrayLike = n.isArrayLike := rfl
  have least : (n.redescribed description default).minItems = n.minItems := rfl
  unfold defaultMinItems
  rw [array, least, apply_ite (Node.redescribed description default)]
  rfl

theorem dropWideMaxItems_redescribed : dropWideMaxItems options (n.redescribed description default) =
    (dropWideMaxItems options n).map (·.redescribed description default) := by
  have array : (n.redescribed description default).isArrayLike = n.isArrayLike := rfl
  have least : (n.redescribed description default).minItems = n.minItems := rfl
  have most : (n.redescribed description default).maxItems = n.maxItems := rfl
  unfold dropWideMaxItems
  rw [array, least, most]
  split
  · rfl
  · split
    · split
      · split <;> rfl
      · rfl
    · rfl

theorem expandItems_redescribed : expandItems (n.redescribed description default) =
    (expandItems n).map (·.redescribed description default) := by
  have repeated : repeatItem (n.redescribed description default) =
      (repeatItem n).map (·.redescribed description default) := by
    have upper : upperBound? (n.redescribed description default) = upperBound? n := rfl
    have lower : lowerBound? (n.redescribed description default) = lowerBound? n := rfl
    have count : placeCount (n.redescribed description default) = placeCount n := rfl
    unfold repeatItem
    rw [upper, lower, count]
    dsimp only [Node.redescribed, Node.altered]
    split
    · split
      · cases placeCount n with
        | error e => rfl
        | ok count =>
          refine congrArg Except.ok ?_
          change _ = Node.redescribed description default (if _ then _ else _)
          rw [apply_ite (Node.redescribed description default)]
          rfl
      · rfl
    · rfl
  have truncated (n : Node) : truncateItems (n.redescribed description default) =
      (truncateItems n).redescribed description default := by
    have upper : upperBound? (n.redescribed description default) = upperBound? n := rfl
    unfold truncateItems
    rw [upper]
    dsimp only [Node.redescribed, Node.altered]
    split <;> rfl
  unfold expandItems
  rw [repeated]
  cases repeatItem n with
  | error e => rfl
  | ok m => exact congrArg Except.ok (truncated m)

theorem dropEmptyBases_altered : dropEmptyBases (n.altered lower upper description default) =
    (dropEmptyBases n).altered lower upper description default := by
  unfold dropEmptyBases
  dsimp only [Node.altered]
  split <;> rfl

theorem listBases_altered : listBases (n.altered lower upper description default) =
    (listBases n).altered lower upper description default := by
  unfold listBases
  dsimp only [Node.altered]
  split <;> rfl

theorem constToEnum_altered : constToEnum (n.altered lower upper description default) =
    (constToEnum n).altered lower upper description default := by
  unfold constToEnum
  dsimp only [Node.altered]
  split <;> rfl

variable (lower upper description default) in
/-- The rules before those for descriptions look at no bounds and no description. -/
theorem ignores_of_early (early : rule ∈ all.take 6) :
    rule.Ignores (·.altered lower upper description default) := by
  intro options n
  simp only [all, List.take, List.mem_cons, List.not_mem_nil, or_false] at early
  rcases early with rfl | rfl | rfl | rfl | rfl | rfl
  · exact congrArg Except.ok dropNullType_altered
  · exact congrArg Except.ok unwrapSingleType_altered
  · exact congrArg Except.ok defaultRequired_altered
  · exact congrArg Except.ok listRequired_altered
  · exact congrArg Except.ok defaultAdditionalProperties_altered
  · exact moveLegacyId_altered

variable (description default) in
/-- The rules after the one that documents the bounds look at no description. -/
theorem ignores_of_late (late : rule ∈ all.drop 8) :
    rule.Ignores (·.redescribed description default) := by
  intro options n
  simp only [all, List.drop, List.mem_cons, List.not_mem_nil, or_false] at late
  rcases late with rfl | rfl | rfl | rfl | rfl | rfl | rfl
  · exact congrArg Except.ok stripBounds_redescribed
  · exact congrArg Except.ok defaultMinItems_redescribed
  · exact dropWideMaxItems_redescribed
  · exact expandItems_redescribed
  · exact congrArg Except.ok dropEmptyBases_altered
  · exact congrArg Except.ok listBases_altered
  · exact congrArg Except.ok constToEnum_altered

variable (default) in
/-- No rule looks at the default. -/
theorem ignores_default (listed : rule ∈ all) :
    rule.Ignores (·.redescribed (fun v => v) default) := by
  have parts : all = all.take 6 ++ (all.drop 6).take 2 ++ all.drop 8 := rfl
  rw [parts, List.mem_append, List.mem_append] at listed
  rcases listed with (early | between) | late
  · exact ignores_of_early _ _ _ default early
  · simp only [all, List.drop, List.take, List.mem_cons, List.not_mem_nil, or_false] at between
    rcases between with rfl | rfl
    · exact fun _ _ => congrArg Except.ok escapeDescription_redescribed
    · exact fun _ _ => documentBounds_redescribed
  · exact ignores_of_late _ default late

end Rule
end LinkedSchema
