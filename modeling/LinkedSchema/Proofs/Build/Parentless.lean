import LinkedSchema.Proofs.Build.Noted
import LinkedSchema.Proofs.Build.Twins
/-! Compilation of a document whose nodes have lost their parent links. Where no node leads back to
itself, it comes to the same types or the same fault. -/
namespace LinkedSchema

variable {g : Graph} {r root : NodeId} {options : Options} {fileName : Option String}
  {types : TypeGraph} {d : Document}

/-- The way up from each node of a document leads to its root. -/
theorem Document.housed_of_ingest (accepted : d.ingest .empty = .ok root g) (acyclic : g.Acyclic) :
    g.Housed root := by
  have none : Graph.empty.ParentsFirst := fun i inside => absurd inside (Nat.not_lt_zero i)
  have first : g.ParentsFirst := Document.parentsFirst_ingest none accepted
  have ends := d.ingest_ends .empty
  rw [accepted] at ends
  obtain ⟨start, met, _, depicted⟩ := ends
  obtain ⟨p, made⟩ := depicted.made_of_reaches .refl
  refine ⟨(Graph.proper_of_ingest Graph.Documented.empty.proper accepted).closed, acyclic,
    depicted.lt_size made, fun i inside p parent => ?_⟩
  have before := first i inside p parent
  have size : g.size = met.length := depicted.size.trans (Nat.zero_add _)
  have way := depicted.ways p (size ▸ Nat.lt_trans before inside)
  rw [show Graph.empty.size + p = p from Nat.zero_add p] at way
  exact ⟨before, way⟩

namespace Builder

theorem rooted_fresh (housed : g.Housed r) :
    Rooted g r { fresh g types fileName with root := some r } where
  root := rfl
  size := Nat.le_refl _
  kept _ _ := rfl
  children i s child := housed.closed i (Graph.lt_size_of_child child) s child
  above i p parent := by
    have inside : i < g.size := Graph.lt_size_of_parent parent
    obtain ⟨before, same⟩ := housed.above i inside p parent
    exact ⟨Nat.lt_trans before inside, same⟩
  cache := nofun

theorem twins_fresh (housed : g.Housed r) :
    Twins g r { fresh g types fileName with root := some r }
      { fresh g.orphans types fileName with root := some r } :=
  ⟨rooted_fresh housed, rooted_fresh housed.orphans, [], rfl⟩

end Builder

namespace Build

theorem depth_orphans (g : Graph) : depth g.orphans = depth g := by
  have counts : (fun most n => max most (typeCount (Node.withParent n none))) =
    fun most n => max most (typeCount n) := rfl
  unfold depth
  rw [Graph.size_orphans, Graph.orphans, Array.foldl_map, counts]

theorem alike_typeOf (housed : g.Housed r) (keyName : Option String) :
    Alike g r (typeOf (.node r) keyName (.fresh g types fileName))
      (typeOf (.node r) keyName (.fresh g.orphans types fileName)) := by
  obtain ⟨fuel, enough⟩ : ∃ fuel, depth g = fuel + 1 := ⟨_, rfl⟩
  -- the node is noted as the root before anything else
  have noted (h : Graph) (same : depth h = depth g) :
      typeOf (.node r) keyName (.fresh h types fileName) = levels (fuel + 1) (.node r) keyName
        { Builder.fresh h types fileName with root := some r } := by
    have run : typeOf (.node r) keyName (.fresh h types fileName) =
      levels (depth h) (.node r) keyName (.fresh h types fileName) := rfl
    rw [run, same, enough]
    rfl
  rw [noted g rfl, noted g.orphans (depth_orphans g)]
  exact paired_levels housed (fuel + 1) (.node r) keyName _ _ (Builder.twins_fresh housed)

theorem compileNode_fresh (g : Graph) : compileNode options root (.fresh g types fileName) =
    match Graph.normalize options fileName root g with
    | .ok _ h => typeOf (.node root) none (.fresh h types fileName)
    | .error e h => .error e (.fresh h types fileName) := by
  have schemas : (Builder.fresh g types fileName).schemas = g := rfl
  show EStateM.bind (onSchemas (Graph.normalize options fileName root)) _ _ = _
  unfold EStateM.bind onSchemas
  rw [schemas]
  cases Graph.normalize options fileName root g <;> rfl

/-- A document that is refused is not compiled, unless it is a boolean. -/
theorem compile_refused {refusal : Refusal} (noBool : d.root.isBool = false)
    (refused : d.ingest .empty = .error refusal g) (options : Options) (fileName : Option String) :
    ∃ e b, compile d options ({ fileName } : Builder) = .error e b := by
  have failed : ingest d ({ fileName } : Builder) =
      .error (.refused refusal) { schemas := g, fileName } := by
    unfold ingest onSchemas
    dsimp only
    rw [refused]
  have step : compile d options ({ fileName } : Builder) =
      EStateM.bind (ingest d) (compileNode options) { fileName } := by
    unfold compile
    cases given : d.root with
    | bool allowed => rw [given] at noBool; cases noBool
    | _ => rfl
  refine ⟨.refused refusal, { schemas := g, fileName }, ?_⟩
  rw [step]
  unfold EStateM.bind
  rw [failed]

/-- Only objects are ingested. -/
theorem ingest_of_other (noObject : d.root.isObj = false) :
    ∃ refusal, d.ingest .empty = .error refusal .empty := by
  unfold Document.ingest
  cases given : d.root with
  | obj fields => rw [given] at noObject; cases noObject
  | _ => exact ⟨_, rfl⟩

/-- A document that is accepted is compiled from the nodes that it has come to. -/
theorem compile_ingested {fields : Entries Json} (object : d.root = .obj fields)
    (accepted : d.ingest .empty = .ok root g) : compile d options ({ fileName } : Builder) =
      compileNode options root (.fresh g .empty fileName) := by
  have ingested : ingest d ({ fileName } : Builder) = .ok root (.fresh g .empty fileName) := by
    unfold ingest onSchemas
    dsimp only
    rw [accepted]
    rfl
  unfold compile
  rw [object]
  show EStateM.bind (ingest d) (compileNode options) ({ fileName } : Builder) = _
  unfold EStateM.bind
  rw [ingested]

/-- Below a root that all nodes belong to, parent links make no difference. -/
theorem alike_compileNode (housed : g.Housed root) (options : Options) :
    (∃ (t : TypeId) (h : Graph) (b c : Builder), h.Housed root ∧
      typeOf (.node root) none (.fresh h types fileName) = .ok t b ∧
      compileNode options root (.fresh g types fileName) = .ok t b ∧
      compileNode options root (.fresh g.orphans types fileName) = .ok t c ∧
      c.types = b.types) ∨
    ∃ (e : Fault) (b c : Builder),
      compileNode options root (.fresh g types fileName) = .error e b ∧
      compileNode options root (.fresh g.orphans types fileName) = .error e c := by
  rw [compileNode_fresh, compileNode_fresh, Graph.normalize_orphans]
  cases run : Graph.normalize options fileName root g with
  | error e h => exact .inr ⟨e, _, _, rfl, rfl⟩
  | ok _ h =>
    have housed : h.Housed root := housed.applyRules (fun _ listed => listed) run
    have alike : Alike h root (typeOf (.node root) none (.fresh h types fileName))
      (typeOf (.node root) none (.fresh h.orphans types fileName)) := alike_typeOf housed none
    dsimp only [Graph.bereft]
    generalize here : typeOf (.node root) none (.fresh h types fileName) = x at alike ⊢
    generalize there : typeOf (.node root) none (.fresh h.orphans types fileName) = y at alike ⊢
    cases alike with
    | error e b c => exact .inr ⟨e, b, c, rfl, rfl⟩
    | ok t twins =>
      obtain ⟨definitions, rfl⟩ := twins.same
      exact .inl ⟨t, h, _, _, housed, here, rfl, rfl, rfl⟩

/-- Without the parent links of its nodes, a document in which no node leads back to itself is
compiled to the same types, which have the same export, or it is refused for the same fault. -/
theorem compileNode_detached (accepted : d.ingest .empty = .ok root g) (acyclic : g.Acyclic)
    (options : Options) (fileName : Option String) :
    (∃ t b c, compileNode options root (.fresh g .empty fileName) = .ok t b ∧
      compileNode options root (.fresh (g.detach (List.range g.size)) .empty fileName) = .ok t c ∧
      c.types = b.types ∧
      ∃ json, b.types.toJson t = .ok json ∧ c.types.toJson t = .ok json) ∨
    ∃ e b c, compileNode options root (.fresh g .empty fileName) = .error e b ∧
      compileNode options root (.fresh (g.detach (List.range g.size)) .empty fileName) =
        .error e c := by
  rw [Graph.detach_range]
  have housed := Document.housed_of_ingest accepted acyclic
  rcases alike_compileNode housed options with
    ⟨t, h, b, c, housed, run, here, there, same⟩ | failed
  · have below : Subschema.Below h.size (.node root) := housed.inside
    obtain ⟨continues, stands⟩ := stands_typeOf housed.closed below run
    obtain ⟨json, exported⟩ := TypeGraph.toJson_ok
      (Builder.filled_of_stands continues.sound continues.all_complete stands)
    exact .inl ⟨t, b, c, here, there, same, json, exported, same ▸ exported⟩
  · exact .inr failed

/-- A document with a definition that is shared by a property and the items of another one. -/
def sprig : Document where
  root := .obj [("$link", .str "sprig")]
  parts := [
    ("sprig", .obj [("title", .str "Sprig"),
      ("properties", .obj [
        ("leaves", .obj [("type", .str "array"), ("items", .obj [("$link", .str "leaf")])]),
        ("tip", .obj [("$link", .str "leaf")])]),
      ("definitions", .obj [("Leaf", .obj [("$link", .str "leaf")])])]),
    ("leaf", .obj [("type", .arr [.str "string", .str "null"])])]

theorem compileNode_sprig : ∃ root g t b c, sprig.ingest .empty = .ok root g ∧ g.Acyclic ∧
    compileNode {} root (.fresh g .empty (some "sprig.json")) = .ok t b ∧
    compileNode {} root (.fresh (g.detach (List.range g.size)) .empty (some "sprig.json")) =
      .ok t c ∧
    c.types = b.types ∧ ∃ u < c.types.size, (c.types.node u).standaloneName = some "Leaf" := by
  obtain ⟨root, g, accepted, checked⟩ := exists_of_endsIn (show endsIn (fun root g =>
    decide (∀ i < g.size, ∀ v ∈ (g.node i).successors, i < v.node) &&
      endsIn (fun _ b => decide (∃ u < b.types.size,
        (b.types.node u).standaloneName = some "Leaf"))
        (compileNode {} root (.fresh g .empty (some "sprig.json"))))
    (sprig.ingest .empty) = true by decide +kernel)
  obtain ⟨forward, compiled⟩ := Bool.and_eq_true_iff.mp checked
  obtain ⟨t, b, run, named⟩ := exists_of_endsIn compiled
  have acyclic : g.Acyclic := Graph.acyclic_of_forward (of_decide_eq_true forward)
  rcases compileNode_detached accepted acyclic {} (some "sprig.json") with
    ⟨_, _, c, here, there, same, _⟩ | ⟨_, _, _, here, _⟩
  · cases run.symm.trans here
    exact ⟨root, g, t, b, c, accepted, acyclic, run, there, same,
      same ▸ of_decide_eq_true named⟩
  · cases run.symm.trans here

end Build
end LinkedSchema
