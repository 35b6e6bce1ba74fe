import LinkedSchema.Proofs.Build.Kindred
import LinkedSchema.Proofs.Build.Parentless
/-! Compilations of documents that are the same but for some fields. If the graphs of their nodes
are normalized alike, the documents are compiled alike. -/
namespace LinkedSchema

variable {o : Omission} {d e : Document} {N K : Node → Node → Prop} {C : Json → Json → Prop}
  {options : Options} {fileName : Option String} {root : NodeId} {g h : Graph}

theorem TypeGraph.Akin.refl (same : ∀ v, C v v) (g : TypeGraph) : g.Akin C g :=
  ⟨rfl, fun _ => ⟨rfl, same _⟩⟩

namespace Build

/-- Both compilations end in the same type of graphs that differ in comments at most, or both
fail. -/
def Likewise (C : Json → Json → Prop) (x y : EStateM.Result Fault Builder TypeId) : Prop :=
  (∃ t b c, x = .ok t b ∧ y = .ok t c ∧ b.types.Akin C c.types) ∨
    ∃ e f b c, x = .error e b ∧ y = .error f c

/-- Both normalizations lead to graphs from which the root is built in the same way, or both
fail. -/
def NormalizedAlike (K : Node → Node → Prop) (options : Options) (fileName : Option String)
    (root : NodeId) (g h : Graph) : Prop :=
  (∃ good g' h', Graph.normalize options fileName root g = .ok () g' ∧
    Graph.normalize options fileName root h = .ok () h' ∧ g'.Kin good K h' ∧ good root) ∨
  ∃ e f g' h', Graph.normalize options fileName root g = .error e g' ∧
    Graph.normalize options fileName root h = .error f h'

theorem likewise_compileNode (kinship : Kinship K C)
    (alike : NormalizedAlike K options fileName root g h) :
    Likewise C (compileNode options root (.fresh g .empty fileName))
      (compileNode options root (.fresh h .empty fileName)) := by
  rw [compileNode_fresh, compileNode_fresh]
  rcases alike with ⟨good, g', h', run, run', kin, here⟩ | ⟨e, f, g', h', run, run'⟩
  · rw [run, run']
    dsimp only
    have parallel := parallel_typeOf kinship kin (s := .node root) here none fileName .empty
    generalize typeOf (.node root) none (.fresh g' .empty fileName) = x at parallel ⊢
    generalize typeOf (.node root) none (.fresh h' .empty fileName) = y at parallel ⊢
    cases parallel with
    | ok t kin =>
      obtain ⟨_, types, _, _⟩ := kin
      exact .inl ⟨t, _, _, rfl, rfl, types⟩
    | error e b c => exact .inr ⟨e, e, b, c, rfl, rfl⟩
  · rw [run, run']
    exact .inr ⟨e, f, _, _, rfl, rfl⟩

/-- Documents that are the same but for fields that are left out are compiled alike, if all that
they are ingested to is normalized alike. -/
theorem likewise_compile (lawful : o.Lawful) (fits : Ingestion.Fits o N) (kinship : Kinship K C)
    (same : o.document d = o.document e)
    (alike : ∀ root g h, d.ingest .empty = .ok root g → e.ingest .empty = .ok root h →
      g.Kindred N h → NormalizedAlike K options fileName root g h) :
    Likewise C (compile d options ({ fileName } : Builder))
      (compile e options ({ fileName } : Builder)) := by
  have roots : o.value .single d.root = o.value .single e.root := congrArg Document.root same
  have others (noObject : d.root.isObj = false) (noBool : d.root.isBool = false)
      (noObject' : e.root.isObj = false) (noBool' : e.root.isBool = false) :
      Likewise C (compile d options ({ fileName } : Builder))
        (compile e options ({ fileName } : Builder)) := by
    obtain ⟨_, refused⟩ := ingest_of_other noObject
    obtain ⟨_, refused'⟩ := ingest_of_other noObject'
    obtain ⟨f, b, failed⟩ := compile_refused noBool refused options fileName
    obtain ⟨f', c, failed'⟩ := compile_refused noBool' refused' options fileName
    exact .inr ⟨f, f', b, c, failed, failed'⟩
  rcases Omission.cases_of_value_eq roots with ⟨x, y, left, right⟩ | ⟨vs, ws, left, right, _⟩ |
    ⟨equal, _, noObject⟩
  · rcases Document.ingest_accord lawful fits same with
      ⟨root, g, h, accepted, accepted', kindred⟩ | ⟨_, _, refused, refused'⟩
    · rw [compile_ingested left accepted, compile_ingested right accepted']
      exact likewise_compileNode kinship (alike root g h accepted accepted' kindred)
    · obtain ⟨f, b, failed⟩ := compile_refused (by rw [left]; rfl) refused options fileName
      obtain ⟨f', c, failed'⟩ := compile_refused (by rw [right]; rfl) refused' options fileName
      exact .inr ⟨f, f', b, c, failed, failed'⟩
  · exact others (by rw [left]; rfl) (by rw [left]; rfl) (by rw [right]; rfl) (by rw [right]; rfl)
  · cases given : d.root with
    | bool allowed =>
      have run (d : Document) (given : d.root = .bool allowed) : compile d options
          ({ fileName } : Builder) = typeOf (.bool allowed) none { fileName } := by
        rw [compile, given]
      rw [run d given, run e (equal ▸ given)]
      cases typeOf (.bool allowed) none ({ fileName } : Builder) with
      | ok t b => exact .inl ⟨t, b, b, rfl, rfl, .refl kinship.refl _⟩
      | error f b => exact .inr ⟨f, f, b, b, rfl, rfl⟩
    | _ =>
      have noBool : d.root.isBool = false := by rw [given]; rfl
      exact others noObject noBool (equal ▸ noObject) (equal ▸ noBool)

end Build
end LinkedSchema
