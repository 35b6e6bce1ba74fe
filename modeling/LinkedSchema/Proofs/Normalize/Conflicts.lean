import LinkedSchema.Proofs.Normalize.Normal
import LinkedSchema.Proofs.Schema.Steady
/-! Conflicting identifiers stop a normalization, and nothing else stops it with their fault. -/
namespace LinkedSchema

variable {g h k : Graph} {root i : NodeId} {options : Options} {fileName : Option String}
  {rules : List Rule} {n : Node} {defect : Defect} {fault : Fault}

/-- Two identifiers that both count as given, and differ. -/
def Node.Conflicting (n : Node) : Prop :=
  n.legacyId.truthy = true ∧ n.id.truthy = true ∧ n.legacyId.alike n.id = false

instance (n : Node) : Decidable n.Conflicting := inferInstanceAs (Decidable (_ ∧ _ ∧ _))

namespace Rule

theorem successors_withDefaults : (withDefaults n).successors = n.successors := by
  rw [withDefaults, successors_defaultAdditionalProperties, successors_listRequired,
    successors_defaultRequired, successors_unwrapSingleType, successors_dropNullType]

theorem steady_withDefaults (options : Options) (n : Node) :
    Steady options (all.take 5) n (withDefaults n) :=
  ⟨_, rfl, successors_dropNullType, _, rfl, successors_unwrapSingleType, _, rfl,
    successors_defaultRequired, _, rfl, successors_listRequired, _, rfl,
    successors_defaultAdditionalProperties, rfl⟩

theorem moveLegacyId_error (failed : moveLegacyId n = .error defect) :
    n.Conflicting ∧ defect = .conflictingIds n.legacyId n.id := by
  unfold moveLegacyId at failed
  split at failed
  · rename_i legacy
    split at failed
    · rename_i found
      simp only [Bool.and_eq_true, Bool.not_eq_true'] at found
      cases failed
      exact ⟨⟨legacy, found.1, found.2⟩, rfl⟩
    · cases failed
  · cases failed

theorem moveLegacyId_of_conflicting (conflict : n.Conflicting) :
    moveLegacyId n = .error (.conflictingIds n.legacyId n.id) := by
  obtain ⟨legacy, given, differ⟩ := conflict
  simp [moveLegacyId, legacy, given, differ]

theorem documentBounds_error (failed : documentBounds n = .error defect) :
    ∃ as, defect = .misused as := by
  unfold documentBounds at failed
  split at failed
  · cases failed
  · split at failed
    · cases failed
      exact ⟨_, rfl⟩
    · dsimp only at failed
      split at failed <;> cases failed

theorem dropWideMaxItems_error (failed : dropWideMaxItems options n = .error defect) :
    ∃ as, defect = .misused as := by
  unfold dropWideMaxItems at failed
  split at failed
  · cases failed
  · split at failed
    · split at failed
      · split at failed <;> cases failed
      · cases failed
        exact ⟨_, rfl⟩
    · cases failed
      exact ⟨_, rfl⟩

theorem placeCount_error (failed : placeCount n = .error defect) : ∃ as, defect = .misused as := by
  unfold placeCount at failed
  dsimp only at failed
  split at failed
  · split at failed
    · cases failed
    · cases failed
      exact ⟨_, rfl⟩
  · cases failed
    exact ⟨_, rfl⟩

theorem expandItems_error (failed : expandItems n = .error defect) :
    ∃ as, defect = .misused as := by
  cases repeated : repeatItem n with
  | ok k =>
    rw [expandItems, repeated] at failed
    cases failed
  | error e =>
    rw [expandItems, repeated] at failed
    cases failed
    unfold repeatItem at repeated
    split at repeated
    · split at repeated
      · cases counted : placeCount n with
        | ok count =>
          rw [counted] at repeated
          cases repeated
        | error e =>
          rw [counted] at repeated
          cases repeated
          exact placeCount_error counted
      · cases repeated
    · cases repeated

/-- The rules that follow the one for identifiers find other faults only. -/
theorem misused_of_later {rule : Rule} (later : rule ∈ all.drop 6)
    (failed : rule.apply options n = .error defect) : ∃ as, defect = .misused as := by
  simp only [all, List.drop, List.mem_cons, List.not_mem_nil, or_false] at later
  rcases later with rfl | rfl | rfl | rfl | rfl | rfl | rfl | rfl | rfl
  · cases failed
  · exact documentBounds_error failed
  · cases failed
  · cases failed
  · exact dropWideMaxItems_error failed
  · exact expandItems_error failed
  · cases failed
  · cases failed
  · cases failed

end Rule

namespace Graph

theorem applyRules_append (rules more : List Rule) (g : Graph) :
    applyRules (rules ++ more) options fileName root g =
      match applyRules rules options fileName root g with
      | .ok _ g => applyRules more options fileName root g
      | .error e g => .error e g := by
  induction rules generalizing g with
  | nil => rfl
  | cons rule rules ih =>
    rw [List.cons_append, applyRules_cons, applyRules_cons]
    split
    · exact ih _
    · rfl

/-- A walk fails only if an edit does. -/
theorem walkFrom_error {ε : Type} {edit : Visit → Node → Except ε Node} {e : ε} :
    ∀ (fuel : Nat) (pending met : List Visit) (g : Graph),
      walkFrom edit fuel pending met g = .error (i, e) h → ∃ v n, edit v n = .error e := by
  intro fuel
  induction fuel with
  | zero =>
    intro pending met g run
    cases run
  | succ fuel ih =>
    intro pending met g run
    rw [walkFrom] at run
    split at run
    · cases run
    · split at run
      · rename_i failed
        cases run
        exact ⟨_, _, failed⟩
      · exact ih _ _ _ run

theorem applyRules_error (run : applyRules rules options fileName root g = .error fault h) :
    ∃ rule ∈ rules, ∃ n defect i, rule.apply options n = .error defect ∧
      fault = defect.toFault fileName i := by
  induction rules generalizing g with
  | nil => cases run
  | cons rule rules ih =>
    rw [applyRules_cons] at run
    split at run
    · obtain ⟨later, listed, found⟩ := ih run
      exact ⟨later, List.mem_cons_of_mem _ listed, found⟩
    · rename_i failed
      cases run
      unfold applyRule at failed
      split at failed
      · cases failed
      · rename_i i defect final walked
        cases failed
        obtain ⟨_, n, made⟩ := walkFrom_error _ _ _ _ walked
        exact ⟨rule, List.mem_cons_self, n, defect, i, made, rfl⟩

theorem no_conflict_later {legacyId id : Json} {file : Option String} :
    applyRules (Rule.all.drop 6) options fileName root g ≠
      .error (.conflictingIds legacyId id i file) h := by
  intro run
  obtain ⟨rule, later, n, defect, j, failed, same⟩ := applyRules_error run
  obtain ⟨as, rfl⟩ := Rule.misused_of_later later failed
  cases same

/-- The rules before that for identifiers go through, keep the edges and write no more than the
type, the required names and the additional properties of a node. -/
theorem applyRules_defaults (options : Options) (fileName : Option String) (root : NodeId)
    (g : Graph) : ∃ k, applyRules (Rule.all.take 5) options fileName root g = .ok () k ∧
      g.SameEdges k ∧ (∀ j, ∃ type required additionalProperties,
        k.node j = { g.node j with type, required, additionalProperties }) ∧
      ∀ j, ¬ g.Below root j → k.node j = g.node j := by
  obtain ⟨k, run, size, made, kept⟩ : ∃ k,
      applyRules (Rule.all.take 5) options fileName root g = .ok () k ∧ k.size = g.size ∧
      (∀ j, g.Below root j → k.node j = Rule.withDefaults (g.node j)) ∧
      ∀ j, ¬ g.Below root j → k.node j = g.node j :=
    applyRules_steady fun j _ => Rule.steady_withDefaults options (g.node j)
  refine ⟨k, run, ⟨size, fun j => ?_⟩, fun j => ?_, kept⟩
  · by_cases below : g.Below root j
    · rw [made j below, Rule.successors_withDefaults]
    · rw [kept j below]
  · by_cases below : g.Below root j
    · obtain ⟨type, required, additional, same, _⟩ := Rule.withDefaults_spec (g.node j)
      exact ⟨type, required, additional, (made j below).trans same⟩
    · exact ⟨_, _, _, kept j below⟩

/-- What a normalization leaves behind that stops at a conflict, the first one of a walk. No field
has changed but those that have defaults and, at nodes visited before, the identifiers. -/
structure StopsAt (g : Graph) (root : NodeId) (before : List Visit) (i : NodeId) (h : Graph) :
    Prop where
  first : ∃ key after, g.visits root = before ++ ⟨key, i⟩ :: after
  conflict : (g.node i).Conflicting
  none_before : ∀ v ∈ before, ¬ (g.node v.node).Conflicting
  size : h.size = g.size
  frame : ∀ j, ∃ type required additionalProperties id legacyId,
    h.node j = { g.node j with type, required, additionalProperties, id, legacyId }
  ids : ∀ j, ¬ Met before j →
    (h.node j).id = (g.node j).id ∧ (h.node j).legacyId = (g.node j).legacyId
  both : (h.node i).id = (g.node i).id ∧ (h.node i).legacyId = (g.node i).legacyId
  apart : ∀ j, ¬ g.Below root j → h.node j = g.node j

/-- A halt at the identifiers, told from what the graph was before the defaults were set. -/
theorem Halts.stopsAt {before after : List Visit} {v : Visit}
    (listed : g.visits root = before ++ v :: after)
    (halts : Halts (fun _ n => Rule.moveLegacyId n) k before v defect h) (size : k.size = g.size)
    (frame : ∀ j, ∃ type required additionalProperties,
      k.node j = { g.node j with type, required, additionalProperties })
    (apart : ∀ j, ¬ g.Below root j → k.node j = g.node j) : g.StopsAt root before v.node h := by
  have same : ∀ j, (k.node j).id = (g.node j).id ∧ (k.node j).legacyId = (g.node j).legacyId := by
    intro j
    obtain ⟨type, required, additional, made⟩ := frame j
    rw [made]
    exact ⟨rfl, rfl⟩
  have conflicts : ∀ j, (k.node j).Conflicting ↔ (g.node j).Conflicting := fun j => by
    rw [Node.Conflicting, (same j).1, (same j).2, Node.Conflicting]
  have unmet : ¬ Met before v.node := by
    rintro ⟨u, hu, here⟩
    have once := (walks_visits g root).nodup
    rw [listed, List.map_append, List.nodup_append] at once
    exact once.2.2 u.node (List.mem_map_of_mem hu) v.node (by simp) here
  have ids : ∀ j, ¬ Met before j →
      (h.node j).id = (g.node j).id ∧ (h.node j).legacyId = (g.node j).legacyId := by
    intro j unmet
    rw [halts.kept j unmet]
    exact same j
  refine {
    first := ⟨v.key, after, listed⟩
    conflict := (conflicts v.node).mp (Rule.moveLegacyId_error halts.failed).1
    none_before := fun u hu conflict => ?_
    size := halts.size.trans size
    frame := fun j => ?_
    ids := ids
    both := ids v.node unmet
    apart := fun j out => ?_ }
  · have failed := Rule.moveLegacyId_of_conflicting ((conflicts u.node).mpr conflict)
    rw [halts.edited u hu] at failed
    cases failed
  · obtain ⟨type, required, additional, made⟩ := frame j
    by_cases met : Met before j
    · obtain ⟨u, hu, rfl⟩ := met
      obtain ⟨id, legacyId, moved, _⟩ := Rule.moveLegacyId_spec (halts.edited u hu)
      exact ⟨type, required, additional, id, legacyId, by rw [moved, made]⟩
    · exact ⟨type, required, additional, _, _, (halts.kept j met).trans made⟩
  · rw [halts.kept j ?_, apart j out]
    rintro ⟨u, hu, rfl⟩
    refine out ((met_visits g root u.node).mp ⟨u, ?_, rfl⟩)
    rw [listed]
    exact List.mem_append_left _ hu

/-- After the defaults come the identifiers, and whatever fails there fails the normalization. -/
theorem normalize_of_defaults
    (defaults : applyRules (Rule.all.take 5) options fileName root g = .ok () k) :
    normalize options fileName root g =
      applyRules (Rule.all[5] :: Rule.all.drop 6) options fileName root k := by
  show applyRules (Rule.all.take 5 ++ Rule.all[5] :: Rule.all.drop 6) options fileName root g = _
  rw [applyRules_append, defaults]

theorem applyRule_of_error {rule : Rule}
    (failed : walk (fun _ n => rule.apply options n) root g = .error (i, defect) h) :
    applyRule rule options fileName root g = .error (defect.toFault fileName i) h := by
  unfold applyRule
  rw [failed]

/-- Either a normalization stops at a conflict, or it meets none. -/
theorem normalize_stops (options : Options) (fileName : Option String) (root : NodeId)
    (g : Graph) :
    (∃ before i h, g.StopsAt root before i h ∧ normalize options fileName root g =
      .error (.conflictingIds (g.node i).legacyId (g.node i).id i fileName) h) ∨
    ((∀ i, g.Below root i → ¬ (g.node i).Conflicting) ∧ ∀ legacyId id i file h,
      normalize options fileName root g ≠ .error (.conflictingIds legacyId id i file) h) := by
  obtain ⟨k, defaults, same, frame, apart⟩ := applyRules_defaults options fileName root g
  rw [normalize_of_defaults defaults, applyRules_cons]
  have keeps : KeepsEdges fun _ n => Rule.moveLegacyId n :=
    fun _ _ _ made => Rule.successors_moveLegacyId made
  have walked := walk_steady keeps same root
  have visited := walks_visits g root
  have found := editEach_spec (g := k) (fun _ n => Rule.moveLegacyId n) visited.nodup
    fun v listed => same.size.symm ▸ (visited.fresh v listed).2
  cases edited : editEach (fun _ n => Rule.moveLegacyId n) (g.visits root) k with
  | ok _ l =>
    rw [edited] at walked found
    have checked : applyRule Rule.all[5] options fileName root k = .ok () l :=
      applyRule_of_walk walked
    rw [checked]
    refine .inr ⟨fun i below conflict => ?_, fun _ _ _ _ _ run => no_conflict_later run⟩
    obtain ⟨v, listed, rfl⟩ := (met_visits g root i).mpr below
    obtain ⟨type, required, additional, made⟩ := frame v.node
    have failed := Rule.moveLegacyId_of_conflicting (n := k.node v.node) (by rwa [made])
    rw [found.2.1 v listed] at failed
    cases failed
  | error e l =>
    obtain ⟨i, defect⟩ := e
    rw [edited] at walked found
    have checked : applyRule Rule.all[5] options fileName root k =
        .error (defect.toFault fileName i) l := applyRule_of_error walked
    rw [checked]
    obtain ⟨before, v, after, listed, rfl, halts⟩ := found
    have stops := halts.stopsAt listed same.size frame apart
    refine .inl ⟨before, v.node, l, stops, ?_⟩
    obtain ⟨_, rfl⟩ := Rule.moveLegacyId_error halts.failed
    obtain ⟨type, required, additional, made⟩ := frame v.node
    rw [made]
    rfl

/-- A normalization stops at conflicting identifiers just if a node that the root leads to has
such. It then tells of the first one of a walk, and leaves the identifiers of that node and of all
that come later as they were. -/
theorem normalize_conflicts (options : Options) (fileName : Option String) (root : NodeId)
    (g : Graph) :
    ((∃ legacyId id i file h,
        normalize options fileName root g = .error (.conflictingIds legacyId id i file) h) ↔
      ∃ i, g.Below root i ∧ (g.node i).Conflicting) ∧
    ∀ legacyId id i file h,
      normalize options fileName root g = .error (.conflictingIds legacyId id i file) h →
      legacyId = (g.node i).legacyId ∧ id = (g.node i).id ∧ file = fileName ∧
        ∃ before, g.StopsAt root before i h := by
  rcases normalize_stops options fileName root g with ⟨before, i, h, stops, run⟩ | ⟨none, other⟩
  · refine ⟨⟨fun _ => ⟨i, ?_, stops.conflict⟩, fun _ => ⟨_, _, _, _, _, run⟩⟩, ?_⟩
    · obtain ⟨key, after, listed⟩ := stops.first
      refine (met_visits g root i).mp ⟨⟨key, i⟩, ?_, rfl⟩
      rw [listed]
      simp
    · intro legacyId id j file h' run'
      rw [run] at run'
      cases run'
      exact ⟨rfl, rfl, rfl, before, stops⟩
  · refine ⟨⟨?_, ?_⟩, fun legacyId id i file h run => absurd run (other _ _ _ _ _)⟩
    · rintro ⟨legacyId, id, i, file, h, run⟩
      exact absurd run (other _ _ _ _ _)
    · rintro ⟨i, below, conflict⟩
      exact absurd conflict (none i below)

/-- A cycle with an identifier to move ahead of two conflicts, and a conflict out of reach. -/
def quarrel : Graph := ⟨#[
  { type := .arr [.str "object"], legacyId := .str "a", properties := some [("next", .node 1)] },
  { legacyId := .str "b", id := .str "c", anyOf := some [.node 2, .node 0] },
  { legacyId := .str "d", id := .str "e" },
  { legacyId := .str "f", id := .str "g" }]⟩

theorem normalize_quarrel : (∃ i, quarrel.Below 0 i ∧ (quarrel.node i).Conflicting) ∧ ∃ h,
    normalize {} (some "t.json") 0 quarrel =
      .error (.conflictingIds (.str "b") (.str "c") 1 (some "t.json")) h ∧
    ∃ before, quarrel.StopsAt 0 before 1 h := by
  have stops : (match normalize {} (some "t.json") 0 quarrel with
      | .error (.conflictingIds _ _ i _) _ => i == 1
      | _ => false) = true := by decide +kernel
  split at stops
  · rename_i legacyId id i file h run
    obtain rfl : i = 1 := by simpa using stops
    obtain ⟨found, told⟩ := normalize_conflicts {} (some "t.json") 0 quarrel
    obtain ⟨rfl, rfl, rfl, left⟩ := told _ _ _ _ _ run
    exact ⟨found.mp ⟨_, _, _, _, _, run⟩, h, run, left⟩
  · cases stops

end Graph
end LinkedSchema
