import LinkedSchema.Proofs.Normalize.Conflicts
import LinkedSchema.Proofs.Normalize.Typed
import LinkedSchema.Proofs.Schema.Documented
/-! Bounds stay documented. The first normalization writes the bounds of an array into its
description, and no later one writes them again, whatever the rules make of the bounds. -/
namespace LinkedSchema

variable {g h k : Graph} {root i : NodeId} {options : Options} {fileName : Option String}
  {rule : Rule} {rules : List Rule} {n m : Node} {description : Json}

namespace Node

/-- The text of the description, escaped so that it ends no comment. -/
def escapedText (n : Node) : String :=
  match n.description with
  | .str text => .ofList (splitCommentEnds ' ' text.toList)
  | _ => ""

/-- The lines that document the bounds and do not stand in the escaped description. -/
def missingLines (n : Node) : List String :=
  (Rule.boundLines n).filter (!(linesOf n.escapedText).contains ·)

/-- The description with the bounds documented: the missing lines follow the escaped text after a
blank line. Where none is missing there is only the escaped text, or none if there was none. -/
def documentation (n : Node) : Json :=
  if n.missingLines = [] then
    if n.description.isNull then .null else .str n.escapedText
  else if n.escapedText = "" then .str ("\n".intercalate n.missingLines)
  else .str (n.escapedText ++ "\n\n" ++ "\n".intercalate n.missingLines)

/-- An array with that description, which ends no comment and documents the bounds. -/
structure Documents (description : Json) (n : Node) : Prop where
  typed : n.Typed
  array : n.isArrayLike = true
  same : n.description = description
  whole : Rule.HasWholeDescription n
  documented : Rule.IsDocumented n

end Node

open Rule

theorem Node.Documents.of_kept (documents : n.Documents description) (alike : m.Resembles n)
    (same : m.description = n.description) (fewer : boundLines m ⊆ boundLines n) :
    m.Documents description where
  typed := alike.typed
  array := alike.array.trans documents.array
  same := same.trans documents.same
  whole text given := documents.whole text (same ▸ given)
  documented line hl := by
    obtain ⟨text, given, stands⟩ := documents.documented line (fewer hl)
    exact ⟨text, same.trans given, stands⟩

namespace Rule

/-- No rule touches a description that is escaped and documents the bounds, nor does any make a
bound that was not documented. -/
theorem documents_of_rule (listed : rule ∈ all) (documents : n.Documents description)
    (made : rule.apply options n = .ok m) : m.Documents description := by
  have alike := resembles_of_rule listed documents.typed made
  have kept := documents.of_kept alike
  simp only [all, List.mem_cons, List.not_mem_nil, or_false] at listed
  rcases listed with rfl | rfl | rfl | rfl | rfl | rfl | rfl | rfl | rfl | rfl | rfl | rfl | rfl |
    rfl | rfl
  · obtain ⟨type, same, _⟩ := dropNullType_spec n
    cases made.symm.trans (congrArg Except.ok same)
    exact kept rfl fun _ hl => hl
  · obtain ⟨type, same, _⟩ := unwrapSingleType_spec n
    cases made.symm.trans (congrArg Except.ok same)
    exact kept rfl fun _ hl => hl
  · obtain ⟨required, same, _⟩ := defaultRequired_spec n
    cases made.symm.trans (congrArg Except.ok same)
    exact kept rfl fun _ hl => hl
  · obtain ⟨required, same, _⟩ := listRequired_spec n
    cases made.symm.trans (congrArg Except.ok same)
    exact kept rfl fun _ hl => hl
  · obtain ⟨additional, same, _⟩ := defaultAdditionalProperties_spec n
    cases made.symm.trans (congrArg Except.ok same)
    exact kept rfl fun _ hl => hl
  · obtain ⟨id, legacyId, rfl, _⟩ := moveLegacyId_spec made
    exact kept rfl fun _ hl => hl
  · cases made.symm.trans (congrArg Except.ok (escapeDescription_of_whole documents.whole))
    exact documents
  · cases made.symm.trans (documentBounds_of_documented fun _ => documents.documented)
    exact documents
  · obtain ⟨lower, upper, same, _, lowerKept, upperKept⟩ := stripBounds_spec options n
    cases made.symm.trans (congrArg Except.ok same)
    refine kept rfl (boundLines_subset ?_ ?_)
    · exact lowerKept.imp_right fun absent => by rw [absent]; rfl
    · exact upperKept.imp_right fun absent => by rw [absent]; rfl
  · obtain ⟨lower, same, _, lowerKept, _⟩ := defaultMinItems_spec n
    cases made.symm.trans (congrArg Except.ok same)
    refine kept rfl (boundLines_subset ?_ (.inl rfl))
    exact lowerKept.imp_right fun zero => by rw [zero]; rfl
  · obtain ⟨upper, rfl, upperKept, _⟩ :=
      dropWideMaxItems_spec documents.typed.minItems documents.typed.maxItems made
    refine kept rfl (boundLines_subset (.inl rfl) ?_)
    exact upperKept.imp_right fun absent => by rw [absent]; rfl
  · obtain ⟨items, additionalItems, rfl, _⟩ := expandItems_spec made
    exact kept rfl fun _ hl => hl
  · obtain ⟨bases, same, _⟩ := dropEmptyBases_spec n
    cases made.symm.trans (congrArg Except.ok same)
    exact kept rfl fun _ hl => hl
  · obtain ⟨bases, same, _⟩ := listBases_spec n
    cases made.symm.trans (congrArg Except.ok same)
    exact kept rfl fun _ hl => hl
  · obtain ⟨enum, same, _⟩ := constToEnum_spec n
    cases made.symm.trans (congrArg Except.ok same)
    exact kept rfl fun _ hl => hl

/-- The escaped text of a description is read back from it, whether or not there was one. -/
theorem escapeDescription_text (typed : n.description = .null ∨ n.description.isText) :
    ∃ description, escapeDescription n = { n with description } ∧
      description = (if n.description.isNull then .null else .str n.escapedText) ∧
      descriptionText? { n with description } = some n.escapedText := by
  cases given : n.description with
  | null =>
    have whole : HasWholeDescription n := fun text same => by cases given.symm.trans same
    refine ⟨.null, (escapeDescription_of_whole whole).trans (by rw [← given]), rfl, ?_⟩
    simp [descriptionText?, Node.escapedText, given, Json.truthy]
  | str text =>
    refine ⟨.str n.escapedText, ?_, rfl, rfl⟩
    simp [escapeDescription, Node.escapedText, given]
  | _ => simp [given, Json.isText] at typed

/-- The description of an array is escaped and documents the bounds in one go. -/
theorem documentBounds_escaped (typed : n.description = .null ∨ n.description.isText)
    (array : n.isArrayLike = true) :
    documentBounds (escapeDescription n) = .ok { n with description := n.documentation } := by
  obtain ⟨description, escape, shown, text⟩ := escapeDescription_text typed
  have array' : Node.isArrayLike { n with description } = true := array
  have lines : boundLines { n with description } = boundLines n := rfl
  have unlisted (none : n.missingLines = []) :
      { n with description } = { n with description := n.documentation } := by
    rw [Node.documentation, if_pos none, shown]
  rw [escape, documentBounds, array', lines, text, Bool.not_true, Bool.false_or]
  split
  · rename_i nothing
    have none : n.missingLines = [] := by
      rw [Node.missingLines, List.isEmpty_iff.mp nothing, List.filter_nil]
    rw [unlisted none]
  · dsimp only
    change (if n.missingLines.isEmpty = true then _ else _) = _
    split
    · rename_i complete
      rw [unlisted (List.isEmpty_iff.mp complete)]
    · rename_i missing
      have some : n.missingLines ≠ [] := fun none => missing (List.isEmpty_iff.mpr none)
      rw [Node.documentation, if_neg some]
      change Except.ok { n with description := .str (appendLines n.escapedText n.missingLines) } = _
      rw [appendLines]
      by_cases empty : n.escapedText = ""
      · rw [if_pos empty, if_pos (String.isEmpty_iff.mpr empty)]
      · rw [if_neg empty, if_neg fun nothing => empty (String.isEmpty_iff.mp nothing)]

/-- The rules that come to the bounds write them into the description of an array. -/
theorem documents_of_pass (typed : n.Typed) (array : n.isArrayLike = true)
    (made : pass (all.take 8) options n = .ok m) : m.Documents n.documentation := by
  have alike := resembles_of_pass (fun rule listed => List.mem_of_mem_take listed) typed made
  obtain ⟨identified, move, made⟩ := bind_ok (show (moveLegacyId (withDefaults n)).bind
    (fun k => (documentBounds (escapeDescription k)).bind .ok) = .ok m from made)
  obtain ⟨described, document, same⟩ := bind_ok made
  cases same
  obtain ⟨type, required, additional, id, legacyId, rfl, _⟩ := identified_spec move
  obtain ⟨escaped, escape, filled, whole⟩ := escapeDescription_spec
    (n := { n with type, required, additionalProperties := additional, id, legacyId })
    typed.description
  have written := document
  rw [escape] at document
  obtain ⟨description, rfl, _, whole, documented⟩ := documentBounds_spec
    (n := { n with
      type, required, additionalProperties := additional, id, legacyId, description := escaped })
    filled typed.minItems typed.maxItems whole document
  have still : Node.isArrayLike { n with type } = true := alike.array.trans array
  have same := documentBounds_escaped
    (n := { n with type, required, additionalProperties := additional, id, legacyId })
    typed.description still
  rw [written, Except.ok.injEq] at same
  exact ⟨alike.typed, still, congrArg Node.description same, whole, documented still⟩

/-- The rules up to those for the description of an array keep the edges. -/
theorem successors_of_early (early : rule ∈ all.take 8) (made : rule.apply options n = .ok m) :
    m.successors = n.successors := by
  simp only [all, List.take, List.mem_cons, List.not_mem_nil, or_false] at early
  rcases early with rfl | rfl | rfl | rfl | rfl | rfl | rfl | rfl
  · cases made; exact successors_dropNullType
  · cases made; exact successors_unwrapSingleType
  · cases made; exact successors_defaultRequired
  · cases made; exact successors_listRequired
  · cases made; exact successors_defaultAdditionalProperties
  · exact successors_moveLegacyId made
  · cases made; exact successors_escapeDescription
  · exact successors_documentBounds made

end Rule

namespace Graph

/-- Rules that keep the edges come to all nodes that were below the root before. -/
theorem Below.applyRules (keep : ∀ rule ∈ rules, ∀ n m, rule.apply options n = .ok m →
      m.successors = n.successors)
    (run : applyRules rules options fileName root g = .ok () h) (below : g.Below root i) :
    h.Below root i := by
  induction rules generalizing g with
  | nil =>
    cases run
    exact below
  | cons rule rules ih =>
    rw [applyRules_cons] at run
    split at run
    · rename_i k first
      refine ih (fun r hr => keep r (List.mem_cons_of_mem _ hr)) run ?_
      obtain ⟨size, edited, _⟩ := applyRule_ok first
      refine ⟨size.symm ▸ below.1, below.2.mono fun j below reaches j' edge => ?_⟩
      obtain ⟨v, hv, here⟩ := edge
      have same := keep rule List.mem_cons_self _ _ (edited j ⟨size.symm ▸ below.1, reaches⟩)
      exact ⟨v, same ▸ hv, here⟩
    · cases run

variable (fileName root) in
theorem applyRule_keeps_node {P : Node → Prop}
    (kept : ∀ n m, P n → rule.apply options n = .ok m → P m) (here : P (g.node i)) :
    P ((after (applyRule rule options fileName root g)).node i) := by
  rw [after_applyRule]
  exact walkFrom_keeps_node (fun _ => kept) g.size [⟨none, root⟩] [] g here

variable (fileName root) in
/-- What each of some rules keeps of a node a run of them keeps of it, even if it fails on the
way. -/
theorem applyRules_keeps_node {P : Node → Prop}
    (kept : ∀ rule ∈ rules, ∀ n m, P n → rule.apply options n = .ok m → P m)
    (here : P (g.node i)) : P ((after (applyRules rules options fileName root g)).node i) := by
  induction rules generalizing g with
  | nil => exact here
  | cons rule rules ih =>
    have first := applyRule_keeps_node root fileName (kept rule List.mem_cons_self) here
    rw [applyRules_cons]
    cases run : applyRule rule options fileName root g with
    | ok _ k =>
      rw [run] at first
      exact ih (fun r hr => kept r (List.mem_cons_of_mem _ hr)) first
    | error e k =>
      rw [run] at first
      exact first

/-- The states of a graph that is normalized again and again, each time with any options and from
any root. A call that fails leaves the graph as far as it got. -/
inductive Normalizations (g : Graph) : Graph → Prop where
  | none : Normalizations g g
  | call {h : Graph} (options : Options) (fileName : Option String) (root : NodeId) :
      Normalizations g h → Normalizations g (after (normalize options fileName root h))

theorem Normalizations.documents (calls : g.Normalizations h)
    (documents : (g.node i).Documents description) : (h.node i).Documents description := by
  induction calls with
  | none => exact documents
  | call options fileName root _ ih =>
    exact applyRules_keeps_node root fileName
      (fun rule listed n m => Rule.documents_of_rule listed) ih

/-- Every array that is below the root before a normalization is documented by it, also if it is cut
off by it, and is left so by all that follow. -/
theorem normalize_documents (typed : ∀ i, g.Below root i → (g.node i).Typed)
    (run : normalize options fileName root g = .ok () h) (below : g.Below root i)
    (array : (g.node i).isArrayLike = true) :
    (h.node i).Documents (g.node i).documentation := by
  have split : Rule.all = Rule.all.take 8 ++ Rule.all.drop 8 := rfl
  rw [normalize, split, applyRules_append] at run
  cases early : applyRules (Rule.all.take 8) options fileName root g with
  | error e k =>
    rw [early] at run
    cases run
  | ok _ k =>
    rw [early] at run
    obtain ⟨_, passed⟩ := applyRules_ok
      (fun rule listed => Rule.all_shrink rule (List.mem_of_mem_take listed)) early
    have still := below.applyRules (fun rule listed n m => Rule.successors_of_early listed) early
    have documents := Rule.documents_of_pass (typed i below) array (passed i still).2
    have later : ((after (applyRules (Rule.all.drop 8) options fileName root k)).node i).Documents
        (g.node i).documentation :=
      applyRules_keeps_node root fileName
        (fun rule listed n m => Rule.documents_of_rule (List.mem_of_mem_drop listed)) documents
    dsimp only at run
    rwa [run] at later

/-- After a normalization, the description of every array that was below the root before is the old
one, escaped, with the lines for the bounds that it had and did not yet document. No normalization
that follows changes it again, whether it succeeds or fails. -/
theorem normalize_documents_bounds (typed : ∀ i, g.Below root i → (g.node i).Typed)
    (run : normalize options fileName root g = .ok () h) :
    ∀ i, g.Below root i → (g.node i).isArrayLike = true →
      (h.node i).description = (g.node i).documentation ∧
      ∀ k, h.Normalizations k → (k.node i).description = (g.node i).documentation := by
  intro i below array
  have documents := normalize_documents typed run below array
  exact ⟨documents.same, fun k calls => (calls.documents documents).same⟩

/-- A cyclic array that says one of its bounds in a line of its own, and gets too short for its last
element, which has a bound too. -/
def terse : Graph := ⟨#[
  { type := .arr [.str "array"], minItems := .int 1, maxItems := .int 2
    description := .str "a */\u2028@minItems 1"
    items := some (.positions [.node 0, .bool true, .node 1]) },
  { items := some (.each (.bool true)), minItems := .int 3 }]⟩

theorem normalize_terse : (∀ i, terse.Below 0 i → (terse.node i).Typed) ∧ terse.Below 0 1 ∧
    (terse.node 1).isArrayLike = true ∧ ∃ h, normalize {} none 0 terse = .ok () h ∧
    ((h.node 1).description = .str "@minItems 3" ∧
      ∀ k, h.Normalizations k → (k.node 1).description = .str "@minItems 3") := by
  have typed : ∀ i, terse.Below 0 i → (terse.node i).Typed := by
    rintro i ⟨inside, _⟩
    match i, inside with
    | 0, _ => exact ⟨by decide, .inr rfl, .inr rfl, .inr rfl⟩
    | 1, _ => exact ⟨trivial, .inl rfl, .inr rfl, .inl rfl⟩
    | k + 2, beyond => exact absurd beyond (Nat.not_lt.mpr (Nat.le_add_left 2 k))
  have below : terse.Below 0 1 := ⟨by decide, .tail .refl ⟨⟨none, 1⟩, by decide, rfl⟩⟩
  obtain ⟨_, h, run⟩ := exists_of_succeeds
    (show succeeds (normalize {} none 0 terse) = true by decide +kernel)
  have told : (terse.node 1).documentation = .str "@minItems 3" := by rfl
  exact ⟨typed, below, rfl, h, run, told ▸ normalize_documents_bounds typed run 1 below rfl⟩

example : (terse.node 0).documentation = .str "a * /\u2028@minItems 1\n\n@maxItems 2" := by rfl

end Graph
end LinkedSchema
