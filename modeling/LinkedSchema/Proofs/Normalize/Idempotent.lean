import LinkedSchema.Proofs.Normalize.Normal
/-! A second normalization finds nothing to do. -/
namespace LinkedSchema
namespace Graph

variable {g h : Graph} {root : NodeId} {options : Options}

theorem normal_of_normalize {fileName : Option String}
    (typed : ∀ i, g.Below root i → (g.node i).Typed)
    (run : normalize options fileName root g = .ok () h) :
    ∀ i, h.Below root i → (h.node i).Normal options := by
  intro i below
  obtain ⟨size, passed⟩ := applyRules_ok Rule.all_shrink run
  obtain ⟨reaches, pass⟩ := passed i below
  have inside : i < g.size := size ▸ below.1
  exact Rule.pass_normal (typed i ⟨inside, reaches⟩) pass

theorem normalize_eq_self {fileName : Option String}
    (normal : ∀ i, h.Below root i → (h.node i).Normal options) :
    normalize options fileName root h = .ok () h := by
  have steady : ∀ i, h.Below root i → Rule.Steady options Rule.all (h.node i) (h.node i) :=
    fun i below => Rule.steady_normal (normal i below)
  obtain ⟨k, run, size, made, kept⟩ :
      ∃ k, normalize options fileName root h = .ok () k ∧ k.size = h.size ∧
        (∀ i, h.Below root i → k.node i = h.node i) ∧
        ∀ i, ¬ h.Below root i → k.node i = h.node i := applyRules_steady steady
  have same : k = h := by
    refine ext_node size fun i _ => ?_
    by_cases below : h.Below root i
    · exact made i below
    · exact kept i below
  rw [run, same]

/-- Where a normalization succeeds, another one succeeds too, whatever the name of the file, and
changes no field of any node. So all that is made of the graph, such as its export and its types,
is the same before and after. -/
theorem normalize_idempotent {fileName : Option String}
    (typed : ∀ i, g.Below root i → (g.node i).Typed)
    (run : normalize options fileName root g = .ok () h) (fileName' : Option String) :
    normalize options fileName' root h = .ok () h :=
  normalize_eq_self (normal_of_normalize typed run)

/-- A cyclic graph that most rules find something to do in. -/
def unruly : Graph := ⟨#[
  { type := .arr [.str "array"], minItems := .int 1, maxItems := .int 2
    description := .str "a */ b", items := some (.each (.node 1)), bases := some (.many []) },
  { type := .arr [.str "null", .str "object"], const := some .null, required := .bool false
    legacyId := .str "a", bases := some (.one (.node 0)) }]⟩

theorem normalize_unruly : ∃ h, normalize {} none 0 unruly = .ok () h ∧
    normalize {} (some "a.json") 0 h = .ok () h := by
  obtain ⟨_, h, run⟩ := exists_of_succeeds
    (show succeeds (normalize {} none 0 unruly) = true by decide +kernel)
  have typed : ∀ i, unruly.Below 0 i → (unruly.node i).Typed := by
    rintro i ⟨inside, _⟩
    have number : i = 0 ∨ i = 1 := Nat.le_one_iff_eq_zero_or_eq_one.mp (Nat.le_of_lt_succ inside)
    rcases number with rfl | rfl
    · exact ⟨by decide, .inr rfl, .inr rfl, .inr rfl⟩
    · exact ⟨by decide, .inl rfl, .inl rfl, .inl rfl⟩
  exact ⟨h, run, normalize_idempotent typed run (some "a.json")⟩

end Graph
end LinkedSchema
