import LinkedSchema.Normalize.Rules
import LinkedSchema.Proofs.Schema.Renumbering
/-! Rules neither see nor change the numbers of nodes: what they do to a node, they do to it in a
graph of other numbers, and below another parent. -/
namespace LinkedSchema

variable {n m k : Node} {f : NodeId → NodeId} {p : Option NodeId} {options : Options}

/-- A rule does the same to a node whatever the numbers are that the node leads to, and whatever its
parent is. -/
def Rule.Renumbers (rule : Rule) : Prop :=
  ∀ (options : Options) (n : Node) (f : NodeId → NodeId) (p : Option NodeId),
    rule.apply options (n.renumber f p) = (rule.apply options n).map (·.renumber f p)

namespace Rule

theorem ite_renumber (c : Bool) (k m : Node) :
    (if c then k else m).renumber f p = if c then k.renumber f p else m.renumber f p :=
  apply_ite (Node.renumber · f p) (c = true) k m

theorem dropNullType_renumber :
    dropNullType (n.renumber f p) = (dropNullType n).renumber f p := by
  have same : admitsNull (n.renumber f p) = admitsNull n := rfl
  unfold dropNullType
  rw [same]
  dsimp only [Node.renumber]
  split
  · split <;> rfl
  · rfl

theorem unwrapSingleType_renumber :
    unwrapSingleType (n.renumber f p) = (unwrapSingleType n).renumber f p := by
  unfold unwrapSingleType
  dsimp only [Node.renumber]
  split <;> rfl

theorem defaultRequired_renumber :
    defaultRequired (n.renumber f p) = (defaultRequired n).renumber f p := by
  unfold defaultRequired
  rw [Node.isObjectLike_renumber, ite_renumber]
  rfl

theorem listRequired_renumber :
    listRequired (n.renumber f p) = (listRequired n).renumber f p := by
  unfold listRequired
  dsimp only [Node.renumber]
  split <;> rfl

theorem defaultAdditionalProperties_renumber :
    defaultAdditionalProperties (n.renumber f p) =
      (defaultAdditionalProperties n).renumber f p := by
  have additional : (n.renumber f p).additionalProperties.isNone = n.additionalProperties.isNone :=
    Option.isNone_map
  have patterns : (n.renumber f p).patternProperties.isNone = n.patternProperties.isNone :=
    Option.isNone_map
  unfold defaultAdditionalProperties
  rw [Node.isObjectLike_renumber, additional, patterns, ite_renumber]
  rfl

theorem moveLegacyId_renumber :
    moveLegacyId (n.renumber f p) = (moveLegacyId n).map (·.renumber f p) := by
  have legacy : (n.renumber f p).legacyId = n.legacyId := rfl
  have own : (n.renumber f p).id = n.id := rfl
  unfold moveLegacyId
  rw [legacy, own]
  split
  · split <;> rfl
  · rfl

theorem escapeDescription_renumber :
    escapeDescription (n.renumber f p) = (escapeDescription n).renumber f p := by
  unfold escapeDescription
  dsimp only [Node.renumber]
  split <;> rfl

theorem documentBounds_renumber :
    documentBounds (n.renumber f p) = (documentBounds n).map (·.renumber f p) := by
  have lines : boundLines (n.renumber f p) = boundLines n := rfl
  have text : descriptionText? (n.renumber f p) = descriptionText? n := rfl
  unfold documentBounds
  rw [lines, text, Node.isArrayLike_renumber]
  split
  · rfl
  · split
    · rfl
    · dsimp only
      split <;> rfl

theorem stripBounds_renumber :
    stripBounds options (n.renumber f p) = (stripBounds options n).renumber f p := by
  unfold stripBounds
  rw [Node.isArrayLike_renumber, ite_renumber]
  rfl

theorem defaultMinItems_renumber :
    defaultMinItems (n.renumber f p) = (defaultMinItems n).renumber f p := by
  have lower : (n.renumber f p).minItems = n.minItems := rfl
  unfold defaultMinItems
  rw [Node.isArrayLike_renumber, lower, ite_renumber]
  rfl

theorem dropWideMaxItems_renumber :
    dropWideMaxItems options (n.renumber f p) =
      (dropWideMaxItems options n).map (·.renumber f p) := by
  have upper : (n.renumber f p).maxItems = n.maxItems := rfl
  have lower : (n.renumber f p).minItems = n.minItems := rfl
  unfold dropWideMaxItems
  rw [Node.isArrayLike_renumber, upper, lower]
  split
  · rfl
  · split
    · split
      · split <;> rfl
      · rfl
    · rfl

theorem repeatItem_renumber :
    repeatItem (n.renumber f p) = (repeatItem n).map (·.renumber f p) := by
  have upper : upperBound? (n.renumber f p) = upperBound? n := rfl
  have lower : lowerBound? (n.renumber f p) = lowerBound? n := rfl
  have count : placeCount (n.renumber f p) = placeCount n := rfl
  have items : (n.renumber f p).items = n.items.map (·.renumber f) := rfl
  unfold repeatItem
  rw [upper, lower, count, items]
  cases n.items with
  | none => rfl
  | some items =>
    cases items with
    | positions items => rfl
    | each item =>
      dsimp only [Option.map_some, Items.renumber]
      split
      · cases placeCount n with
        | error e => rfl
        | ok count =>
          refine congrArg Except.ok ?_
          change _ = Node.renumber (if _ then _ else _) f p
          rw [ite_renumber]
          simp only [Node.renumber, Option.map_some, Items.renumber, List.map_replicate]
          rfl
      · rfl

theorem truncateItems_renumber :
    truncateItems (n.renumber f p) = (truncateItems n).renumber f p := by
  have upper : upperBound? (n.renumber f p) = upperBound? n := rfl
  have items : (n.renumber f p).items = n.items.map (·.renumber f) := rfl
  unfold truncateItems
  rw [upper, items]
  cases n.items with
  | none => rfl
  | some items =>
    cases items with
    | each item => rfl
    | positions items =>
      cases upperBound? n with
      | none => rfl
      | some upper =>
        dsimp only [Option.map_some, Items.renumber, Node.renumber]
        rw [List.map_take]

theorem expandItems_renumber :
    expandItems (n.renumber f p) = (expandItems n).map (·.renumber f p) := by
  unfold expandItems
  rw [repeatItem_renumber]
  cases repeatItem n with
  | error e => rfl
  | ok m => exact congrArg Except.ok truncateItems_renumber

theorem dropEmptyBases_renumber :
    dropEmptyBases (n.renumber f p) = (dropEmptyBases n).renumber f p := by
  have bases : (n.renumber f p).bases = n.bases.map (·.renumber f) := rfl
  unfold dropEmptyBases
  rw [bases]
  cases n.bases with
  | none => rfl
  | some bases =>
    cases bases with
    | null => rfl
    | one base => rfl
    | many bases => cases bases <;> rfl

theorem listBases_renumber : listBases (n.renumber f p) = (listBases n).renumber f p := by
  have bases : (n.renumber f p).bases = n.bases.map (·.renumber f) := rfl
  unfold listBases
  rw [bases]
  cases n.bases with
  | none => rfl
  | some bases => cases bases <;> rfl

theorem constToEnum_renumber : constToEnum (n.renumber f p) = (constToEnum n).renumber f p := by
  unfold constToEnum
  dsimp only [Node.renumber]
  split <;> rfl

theorem all_renumber : ∀ rule ∈ all, rule.Renumbers := by
  intro rule listed options n f p
  simp only [all, List.mem_cons, List.not_mem_nil, or_false] at listed
  rcases listed with rfl | rfl | rfl | rfl | rfl | rfl | rfl | rfl | rfl | rfl | rfl | rfl | rfl |
    rfl | rfl
  · exact congrArg Except.ok dropNullType_renumber
  · exact congrArg Except.ok unwrapSingleType_renumber
  · exact congrArg Except.ok defaultRequired_renumber
  · exact congrArg Except.ok listRequired_renumber
  · exact congrArg Except.ok defaultAdditionalProperties_renumber
  · exact moveLegacyId_renumber
  · exact congrArg Except.ok escapeDescription_renumber
  · exact documentBounds_renumber
  · exact congrArg Except.ok stripBounds_renumber
  · exact congrArg Except.ok defaultMinItems_renumber
  · exact dropWideMaxItems_renumber
  · exact expandItems_renumber
  · exact congrArg Except.ok dropEmptyBases_renumber
  · exact congrArg Except.ok listBases_renumber
  · exact congrArg Except.ok constToEnum_renumber

end Rule
end LinkedSchema
