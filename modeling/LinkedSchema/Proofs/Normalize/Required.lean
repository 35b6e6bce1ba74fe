import LinkedSchema.Proofs.Normalize.Normal
/-! Required names: what becomes of the keyword at nodes that describe objects. -/
namespace LinkedSchema

variable {g h : Graph} {root : NodeId} {options : Options} {fileName : Option String} {n m : Node}

/-- The keyword is absent, a boolean or a list of names. -/
def Json.IsRequirement : Json → Prop
  | .null | .bool _ => True
  | .arr names => ∀ v ∈ names, v.isText
  | _ => False

instance : (v : Json) → Decidable v.IsRequirement
  | .null | .bool _ => .isTrue trivial
  | .arr names => inferInstanceAs (Decidable (∀ v ∈ names, v.isText))
  | .int _ | .float _ | .str _ | .obj _ => .isFalse id

namespace Rule

theorem pass_required (made : pass all options n = .ok m) (object : m.isObjectLike = true) :
    m.required = n.requiredNames := by
  obtain ⟨id, legacyId, description, lower, upper, items, additionalItems, bases, enum, _, rfl⟩ :=
    pass_writes made
  obtain ⟨type, required, additional, defaults, _, listed⟩ := withDefaults_spec n
  rw [defaults] at object ⊢
  exact listed object

end Rule

namespace Graph

/-- After a normalization, the required names of a node that describes objects are a list, unless
the keyword was true in the beginning: that it still is then. -/
theorem normalize_required (declared : ∀ i, g.Below root i → (g.node i).required.IsRequirement)
    (run : normalize options fileName root g = .ok () h) :
    ∀ i, h.Below root i → (h.node i).isObjectLike = true →
      (h.node i).required = (g.node i).requiredNames ∧
        ((∃ names, (h.node i).required = .arr names) ↔ (g.node i).required ≠ .bool true) := by
  intro i below object
  obtain ⟨size, passed⟩ := applyRules_ok Rule.all_shrink run
  obtain ⟨reaches, pass⟩ := passed i below
  have made := Rule.pass_required pass object
  refine ⟨made, ?_⟩
  have declared := declared i ⟨size ▸ below.1, reaches⟩
  rw [made]
  cases given : (g.node i).required with
  | null => simp [Node.requiredNames, given]
  | bool b => cases b <;> simp [Node.requiredNames, given]
  | arr names => simp [Node.requiredNames, given]
  | _ =>
    rw [given] at declared
    exact declared.elim

/-- Required names that are false, absent, true and given, the true ones at a node that does not
describe objects. -/
def roster : Graph := ⟨#[
  { type := .arr [.str "object"], required := .bool false, properties := some [("a", .node 1)] },
  { type := .str "any", anyOf := some [.node 0, .node 2] },
  { type := .str "string", required := .bool true, allOf := some [.node 3] },
  { properties := some [], required := .arr [.str "b"] }]⟩

theorem normalize_roster : (∀ i, roster.Below 0 i → (roster.node i).required.IsRequirement) ∧
    ∃ h, normalize {} (some "t.json") 0 roster = .ok () h ∧ h.Below 0 0 ∧
      (h.node 0).isObjectLike = true ∧
      ∀ i, h.Below 0 i → (h.node i).isObjectLike = true →
        (h.node i).required = (roster.node i).requiredNames ∧
          ((∃ names, (h.node i).required = .arr names) ↔
            (roster.node i).required ≠ .bool true) := by
  have declared : ∀ i, roster.Below 0 i → (roster.node i).required.IsRequirement :=
    fun i below => (by decide : ∀ i < roster.size, (roster.node i).required.IsRequirement) i below.1
  obtain ⟨_, h, run, shape⟩ := exists_of_endsIn
    (show endsIn (fun _ h => decide (0 < h.size) && (h.node 0).isObjectLike)
      (normalize {} (some "t.json") 0 roster) = true by decide +kernel)
  simp only [Bool.and_eq_true, decide_eq_true_eq] at shape
  exact ⟨declared, h, run, ⟨shape.1, .refl⟩, shape.2, normalize_required declared run⟩

/-- An object of which all properties seem to be required. -/
def insistent : Graph := ⟨#[{ type := .str "object", required := .bool true }]⟩

theorem normalize_insistent :
    (∀ i, insistent.Below 0 i → (insistent.node i).required.IsRequirement) ∧
    ∃ h, normalize {} none 0 insistent = .ok () h ∧ h.Below 0 0 ∧
      (h.node 0).isObjectLike = true ∧ ∀ names, (h.node 0).required ≠ .arr names := by
  obtain ⟨_, h, run, shape⟩ := exists_of_endsIn
    (show endsIn (fun _ h => decide (0 < h.size) && (h.node 0).isObjectLike &&
      (h.node 0).required.isBool) (normalize {} none 0 insistent) = true by decide +kernel)
  simp only [Bool.and_eq_true, decide_eq_true_eq] at shape
  refine ⟨fun i below => ?_, h, run, ⟨shape.1.1, .refl⟩, shape.1.2, fun names listed => ?_⟩
  · exact (by decide : ∀ i < insistent.size, (insistent.node i).required.IsRequirement) i below.1
  · rw [listed] at shape
    cases shape.2

end Graph
end LinkedSchema
