import LinkedSchema.Proofs.Build.Comments
import LinkedSchema.Proofs.Normalize.Edges
import LinkedSchema.Proofs.Normalize.Passes
import LinkedSchema.Proofs.Schema.Contents
import LinkedSchema.Proofs.Types.Order
/-! Where a comment of a compiled document can end before its time: in the note on a definition
whose key ends a comment, and nowhere else. -/
namespace LinkedSchema

variable {d : Document} {g later : Graph} {root i j : NodeId} {start p : Place}
  {fields : Entries Json} {made : NodeId → Place → Prop} {n m : Node} {rules : List Rule}
  {options : Options} {fileName : Option String} {b : Builder} {text : String}

/-- A description that is a text and bounds that are integers, as far as they are given. -/
structure DescribedFields (fields : Entries Json) : Prop where
  description : ∀ v, fields.lookup "description" = some v → v = .null ∨ v.isText
  minItems : ∀ v, fields.lookup "minItems" = some v → v.IsBound
  maxItems : ∀ v, fields.lookup "maxItems" = some v → v.IsBound

theorem Json.isNull_iff {v : Json} : v.isNull = true ↔ v = .null := by
  cases v <;> simp [Json.isNull]

/-- Whether the value is a text that ends a comment. -/
def Json.endsComment : Json → Bool
  | .str text => decide (EndsComment text.toList)
  | _ => false

theorem Json.endsComment_of_eq_true {v : Json} (ends : v.endsComment = true) :
    ∃ text, v = .str text ∧ EndsComment text.toList := by
  cases v with
  | str text => exact ⟨text, rfl, of_decide_eq_true ends⟩
  | _ => cases ends

instance (fields : Entries Json) : Decidable (DescribedFields fields) :=
  decidable_of_iff
    ((∀ v ∈ fields.lookup "description", v.isNull ∨ v.isText) ∧
      (∀ v ∈ fields.lookup "minItems", v.isNull ∨ v.int?.isSome) ∧
      ∀ v ∈ fields.lookup "maxItems", v.isNull ∨ v.int?.isSome) (by
    simp only [Json.isNull_iff]
    exact ⟨fun h => ⟨h.1, h.2.1, h.2.2⟩, fun h => ⟨h.description, h.minItems, h.maxItems⟩⟩)

namespace Document

/-- All objects that the document leads to are described by texts and integers. -/
def Described (d : Document) : Prop :=
  ∀ start p fields, d.start? = some start → d.Reaches start p → d.fieldsAt p = some fields →
    DescribedFields fields

/-- What holds of the objects at some places holds of all that the document leads to, if no others
are met from there. -/
theorem each_of_closed {good : Entries Json → Prop} (places : List Place)
    (starts : ∀ p ∈ d.start?, p ∈ places)
    (closed : ∀ p ∈ places, ∀ slot ∈ d.slotsAt p, ∀ q ∈ d.leads? p slot, q ∈ places)
    (each : ∀ p ∈ places, ∀ fields ∈ d.fieldsAt p, good fields) :
    ∀ start p fields, d.start? = some start → d.Reaches start p → d.fieldsAt p = some fields →
      good fields := by
  intro start p fields start_eq reached here
  refine each p ?_ fields here
  clear here
  induction reached with
  | refl => exact starts start start_eq
  | tail _ leads ih =>
    obtain ⟨slot, listed, next⟩ := leads
    exact closed _ ih slot listed _ next

/-- A document is described if the objects at some places are, and no others are met from there. -/
theorem described_of_closed (places : List Place) (starts : ∀ p ∈ d.start?, p ∈ places)
    (closed : ∀ p ∈ places, ∀ slot ∈ d.slotsAt p, ∀ q ∈ d.leads? p slot, q ∈ places)
    (each : ∀ p ∈ places, ∀ fields ∈ d.fieldsAt p, DescribedFields fields) : d.Described :=
  each_of_closed places starts closed each

/-- An object that the document leads to has a definition of that key. -/
def Defines (d : Document) (key : String) : Prop :=
  ∃ start p fields, d.start? = some start ∧ d.Reaches start p ∧ d.fieldsAt p = some fields ∧
    ∃ keyword ∈ ["definitions", "$defs"], ∃ entries,
      fields.lookup keyword = some (.obj entries) ∧ key ∈ Entries.names entries

/-- A text that ends a comment only if it notes a definition whose key does. -/
def Excuses (d : Document) (text : String) : Prop :=
  EndsComment text.toList → ∃ name key, d.Defines key ∧ EndsComment key.toList ∧
    (Build.definitionNote name key).toList <:+: text.toList

theorem Excuses.of_infix {more : String} (within : text.toList <:+: more.toList)
    (ends : EndsComment text.toList) (excused : d.Excuses text) :
    ∃ name key, d.Defines key ∧ EndsComment key.toList ∧
      (Build.definitionNote name key).toList <:+: more.toList := by
  obtain ⟨name, key, defines, here, note⟩ := excused ends
  exact ⟨name, key, defines, here, note.trans within⟩

/-- A blank line between two texts keeps apart what could end a comment together. -/
theorem joins_excuses (d : Document) : Joins d.Excuses := by
  intro text more first second ends
  have apart : (text ++ "\n\n" ++ more).toList = text.toList ++ ('\n' :: '\n' :: more.toList) := by
    rw [String.toList_append, String.toList_append, List.append_assoc]
    rfl
  have within : text.toList <:+: (text ++ "\n\n" ++ more).toList := by
    rw [apart]
    exact (List.prefix_append _ _).isInfix
  have within' : more.toList <:+: (text ++ "\n\n" ++ more).toList := by
    rw [String.toList_append]
    exact (List.suffix_append _ _).isInfix
  rw [apart, endsComment_append, endsComment_cons, endsComment_cons] at ends
  rcases ends with here | ((⟨feed, _⟩ | ⟨feed, _⟩ | here) | ⟨_, feed⟩)
  · exact first.of_infix within here
  · cases feed
  · cases feed
  · exact second.of_infix within' here
  · cases feed

theorem Mirrors.described (mirrors : d.Mirrors made p fields n)
    (described : DescribedFields fields) : n.Described := by
  have plain {keyword : String} {v : Json} {P : Json → Prop}
      (listed : (keyword, v) ∈ n.plainKeywords) (absent : P .null)
      (each : ∀ w, fields.lookup keyword = some w → P w) : P v := by
    have same : v = (fields.lookup keyword).getD .null := mirrors.plain _ listed
    rw [same]
    cases found : fields.lookup keyword with
    | none => exact absent
    | some w => exact each w found
  exact {
    description := plain (P := fun v => v = .null ∨ v.isText) (by simp [Node.plainKeywords])
      (.inl rfl) described.description
    minItems := plain (P := Json.IsBound) (by simp [Node.plainKeywords]) (.inl rfl)
      described.minItems
    maxItems := plain (P := Json.IsBound) (by simp [Node.plainKeywords]) (.inl rfl)
      described.maxItems }

/-- A normalized node has no texts for comments but those that are excused. -/
theorem Mirrors.speaks (mirrors : d.Mirrors made p fields n) (starts : d.start? = some start)
    (reached : d.Reaches start p) (here : d.fieldsAt p = some fields) (retells : m.Retells n) :
    m.Speaks d.Excuses where
  description := by
    refine retells.description.imp id fun filled => ?_
    cases given : m.description with
    | str text => exact ⟨text, rfl, fun ends => absurd ends (retells.whole text given)⟩
    | _ => rw [given] at filled; cases filled
  patterns := fun e _ name named ends => absurd ends (Build.not_endsComment_patternNote named e.1)
  definitions := by
    intro e listed name named ends
    rw [retells.definitions] at listed
    exact ⟨name, e.1, ⟨start, p, fields, starts, reached, here, mirrors.defines listed⟩,
      (Build.endsComment_definitionNote named e.1).mp ends, List.infix_rfl⟩

end Document

theorem Rule.leadsTo_of_pass (shrink : ∀ rule ∈ rules, rule.Shrinks)
    (made : pass rules options n = .ok m) (leads : m.LeadsTo i) : n.LeadsTo i := by
  induction rules generalizing n with
  | nil =>
    cases made
    exact leads
  | cons rule rules ih =>
    obtain ⟨k, first, rest⟩ := bind_ok made
    exact shrink rule List.mem_cons_self options n k first i
      (ih (fun r hr => shrink r (List.mem_cons_of_mem _ hr)) rest)

namespace Document

/-- A document that is described is calm once it is ingested and normalized. -/
theorem Depicted.calm {met : List Meeting} (depicted : d.Depicted g later root start met)
    (starts : d.start? = some start) (described : d.Described) {h : Graph}
    (run : Graph.normalize options fileName root later = .ok () h) :
    h.Calm d.Excuses root := by
  obtain ⟨size, passed⟩ := Graph.applyRules_ok Rule.all_shrink run
  have inside {i : NodeId} (reaches : later.Reaches root i) : i < h.size := by
    obtain ⟨p, made⟩ := depicted.made_of_reaches reaches
    rw [size]
    exact depicted.lt_size made
  have back {i : NodeId} (reaches : h.Reaches root i) : later.Reaches root i := by
    induction reaches with
    | refl => exact .refl
    | tail walked edge ih =>
      obtain ⟨_, pass⟩ := passed _ ⟨inside ih, walked⟩
      exact ih.tail (Rule.leadsTo_of_pass Rule.all_shrink pass edge)
  intro i reaches
  have within := inside (back reaches)
  refine ⟨within, ?_⟩
  obtain ⟨_, pass⟩ := passed i ⟨within, reaches⟩
  obtain ⟨_, k, m, found, rfl, _⟩ := depicted.made_of_reaches (back reaches)
  obtain ⟨fields, here, mirrors⟩ := depicted.mirrors k m found
  have reached : d.Reaches start m.target :=
    (depicted.reached _).mp (List.mem_map_of_mem (List.mem_of_getElem? found))
  have retells := Rule.pass_retells
    (mirrors.described (described start m.target fields starts reached here)) pass
  exact mirrors.speaks starts reached here retells

end Document

namespace Build

theorem ensures_onSchemas {α : Type} {step : EStateM Fault Graph α} {good : α → Builder → Prop}
    {bad : Fault → Builder → Prop}
    (results : ∀ a g, step b.schemas = .ok a g → good a { b with schemas := g })
    (faults : ∀ e g, step b.schemas = .error e g → bad e { b with schemas := g }) :
    Ensures b (onSchemas step) good bad := by
  unfold Ensures onSchemas
  cases run : step b.schemas with
  | ok a g => exact results a g run
  | error e g => exact faults e g run

/-- A build from a graph alone keeps the comments to the texts that the graph speaks in. -/
theorem quiet_typeOf {ok : String → Prop} (joins : Joins ok) (s : Subschema)
    (keyName : Option String) (calm : ∀ j, s = .node j → g.Calm ok j) :
    Ensures ({ schemas := g, fileName } : Builder) (typeOf s keyName)
      (fun _ later => later.Quiet ok) fun _ _ => True := by
  have quiet : Builder.Quiet ok { schemas := g, fileName } := ⟨fun _ => .inl rfl, nofun, nofun⟩
  apply ensures_get
  exact (levels_quiet joins _ _ s keyName quiet calm).mono fun _ _ h => h.1.quiet

/-- An ingestion leaves the graph that depicts the document, and nothing else. -/
theorem depicted_ingest (d : Document) :
    Ensures ({ fileName } : Builder) (ingest d)
      (fun root b => ∃ start met g, d.start? = some start ∧
        d.Depicted .empty g root start met ∧ b = { schemas := g, fileName }) fun _ _ => True := by
  refine ensures_onSchemas (fun root g run => ?_) fun _ _ _ => trivial
  have ends := d.ingest_ends .empty
  dsimp only at run
  split at run
  · rename_i accepted
    cases run
    rw [accepted] at ends
    obtain ⟨start, met, starts, depicted⟩ := ends
    exact ⟨start, met, _, starts, depicted, rfl⟩
  · cases run

/-- A node of a described document is normalized and built without other texts than those that are
excused. -/
theorem quiet_compileNode {met : List Meeting} (depicted : d.Depicted .empty g root start met)
    (starts : d.start? = some start) (described : d.Described) (options : Options) :
    Ensures ({ schemas := g, fileName } : Builder) (compileNode options root)
      (fun _ later => later.Quiet d.Excuses) fun _ _ => True := by
  have normalized : Ensures ({ schemas := g, fileName } : Builder)
      (onSchemas (Graph.normalize options fileName root))
      (fun _ b => ∃ h : Graph, h.Calm d.Excuses root ∧ b = { schemas := h, fileName })
      fun _ _ => True :=
    ensures_onSchemas (fun _ h run => ⟨h, depicted.calm starts described run, rfl⟩)
      fun _ _ _ => trivial
  unfold compileNode
  apply ensures_get
  apply normalized.bind
  rintro _ _ ⟨h, calm, rfl⟩
  exact quiet_typeOf d.joins_excuses (.node root) none fun j here => by cases here; exact calm

theorem quiet_compile (described : d.Described) (options : Options) :
    Ensures ({ fileName } : Builder) (compile d options) (fun _ later => later.Quiet d.Excuses)
      fun _ _ => True := by
  unfold compile
  split
  · rename_i allowed _
    exact quiet_typeOf d.joins_excuses (.bool allowed) none nofun
  · apply (depicted_ingest d).bind
    rintro root _ ⟨start, met, g, starts, depicted, rfl⟩
    exact quiet_compileNode depicted starts described options

/-- Every comment of a compiled document is absent or a text, and ends nowhere but in the notes on
definitions whose keys do. -/
theorem compile_comments (d : Document) (options : Options) (fileName : Option String)
    (described : d.Described) {t : TypeId} {later : Builder}
    (run : compile d options ({ fileName } : Builder) = .ok t later) :
    ∀ u, later.types.Reaches t u → IsComment d.Excuses (later.types.node u).comment :=
  fun u _ => ((quiet_compile described options).ok run).comments u

/-- A document with ends of comments in a description and in a pattern. -/
def fenced : Document where
  root := .obj [("title", .str "t"), ("description", .str "a */ b"), ("type", .str "object"),
    ("patternProperties", .obj [("*/", .obj [("items", .bool true), ("maxItems", .int 2)])]),
    ("definitions", .obj [("x", .obj [("type", .str "string"), ("description", .null)])])]

theorem compile_fenced : fenced.Described ∧ ∃ t later,
    compile fenced {} ({ fileName := some "t.json" } : Builder) = .ok t later ∧
      ∀ u, later.types.Reaches t u → IsComment fenced.Excuses (later.types.node u).comment := by
  have described : fenced.Described := Document.described_of_closed
    [⟨none, []⟩, ⟨none, [⟨"patternProperties", some 0⟩]⟩, ⟨none, [⟨"definitions", some 0⟩]⟩]
    (by decide +kernel) (by decide +kernel) (by decide +kernel)
  obtain ⟨t, later, run⟩ := exists_of_succeeds
    (show succeeds (compile fenced {} ({ fileName := some "t.json" } : Builder)) = true by
      decide +kernel)
  exact ⟨described, t, later, run, compile_comments fenced {} (some "t.json") described run⟩

/-- A document with the end of a comment in the key of a definition. -/
def unfenced : Document where
  root := .obj [("type", .str "object"), ("additionalProperties", .bool false),
    ("definitions", .obj [("*/", .obj [("type", .str "string")])])]

/-- The end of a comment in the key of a definition is not escaped, and ends the comment. -/
theorem compile_unfenced : unfenced.Described ∧ ∃ t later u text,
    compile unfenced {} ({ fileName := some "t.json" } : Builder) = .ok t later ∧
      later.types.Reaches t u ∧ (later.types.node u).comment = .str text ∧
        EndsComment text.toList := by
  have described : unfenced.Described := Document.described_of_closed
    [⟨none, []⟩, ⟨none, [⟨"definitions", some 0⟩]⟩]
    (by decide +kernel) (by decide +kernel) (by decide +kernel)
  obtain ⟨t, later, run, ends⟩ := exists_of_endsIn (show endsIn
    (fun t later => (later.types.node t).references.any fun u =>
      (later.types.node u).comment.endsComment)
    (compile unfenced {} ({ fileName := some "t.json" } : Builder)) = true by decide +kernel)
  obtain ⟨u, refers, here⟩ := List.any_eq_true.mp ends
  obtain ⟨text, comment, ends⟩ := Json.endsComment_of_eq_true here
  exact ⟨described, t, later, u, text, run, .single refers, comment, ends⟩

end Build
end LinkedSchema
