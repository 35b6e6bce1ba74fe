import LinkedSchema.Proofs.Build.CommentEnds
import LinkedSchema.Proofs.Build.Credits
import LinkedSchema.Proofs.Build.Termination
import LinkedSchema.Proofs.Schema.Documented
/-! The notes of a compiled document. The members for patterns and definitions are of types with
notes, except where the type of the member was still to be filled when it got the note. -/
namespace LinkedSchema

variable {g h : Graph} {b later : Builder} {t u : TypeId} {n : Node} {i root : NodeId}
  {category : Category} {form : Form Need} {options : Options} {fileName name keyName : Option String}
  {d : Document} {R : TypeId → Need → Prop}

namespace Node

/-- Interfaces are planned for schemas of objects only. -/
theorem interface_of_plan {plan : Option String → Except Fault (Form Need)}
    (planned : n.plan i fileName category = .ok plan) (made : plan name = .ok form)
    (kind : form.kind = some .interface) : form = n.interfacePlan name := by
  cases category with
  | namedSchema | unnamedSchema =>
    cases planned
    cases made
    rfl
  | reference => cases planned
  | namedEnum =>
    obtain ⟨enum, found, rfl⟩ := map_ok planned
    cases made
    unfold namedEnumPlan at found
    split at found
    · obtain ⟨names, _, found⟩ := bind_ok found
      split at found <;> cases found
      cases kind
    · cases found
  | unnamedEnum =>
    obtain ⟨values, _, rfl⟩ := map_ok planned
    cases made
    cases kind
  | typedArray =>
    cases planned
    cases made
    unfold typedArrayPlan at kind
    split at kind <;> cases kind
  | untypedArray =>
    cases planned
    have made : n.untypedArrayPlan = .ok form := made
    unfold untypedArrayPlan at made
    dsimp only at made
    split at made <;> cases made <;> cases kind
  | _ =>
    cases planned
    cases made
    cases kind

end Node

namespace Builder

/-- The member is of the type of the schema that it stems from, and the note for the key is in the
comment of the type, unless the type was under construction when the interface was made. -/
structure Annotates (b : Builder) (u : TypeId) (note : String → String) (m : Member TypeId)
    (e : String × Subschema) : Prop where
  shows : b.Shows m.type e.2
  noted : (b.types.node m.type).comment.Mentions (note e.1) ∨ b.Encloses u m.type e.2

/-- An interface with members for the properties, the patterns and the definitions of a node, in
this order, and maybe one more. -/
def Annotated (b : Builder) (u : TypeId) (n : Node) : Prop :=
  ∃ properties patterns definitions additional : List (Member TypeId),
    (b.types.node u).params =
      .many ((properties ++ patterns ++ definitions ++ additional).map .member) ∧
    properties.map (·.key) = Entries.names (n.properties.getD []) ∧
    List.Forall₂ (b.Annotates u (Build.patternNote (b.types.node u).standaloneName)) patterns
      (n.patternProperties.getD []) ∧
    List.Forall₂ (b.Annotates u (Build.definitionNote (b.types.node u).standaloneName)) definitions
      (n.definitions.getD [])

theorem exists_members_of_matches {parts : List Part} {needs : List (Member Need)}
    (agree : List.Forall₂ (Part.Matches Eq R) parts (needs.map .member)) :
    ∃ members : List (Member TypeId), parts = members.map .member ∧
      List.Forall₂ (Member.Matches R) members needs := by
  induction needs generalizing parts with
  | nil =>
    cases agree
    exact ⟨[], rfl, .nil⟩
  | cons need needs ih =>
    cases agree with
    | cons first rest =>
      obtain ⟨members, rfl, agree⟩ := ih rest
      cases first with
      | @member m _ same => exact ⟨m :: members, rfl, .cons same agree⟩

theorem exists_parts_of_append {α β : Type} {S : α → β → Prop} {xs : List α} {ys zs : List β}
    (agree : List.Forall₂ S xs (ys ++ zs)) :
    ∃ first last, xs = first ++ last ∧ List.Forall₂ S first ys ∧ List.Forall₂ S last zs :=
  ⟨_, _, (List.take_append_drop ys.length xs).symm, List.forall₂_take_append _ _ _ agree,
    List.forall₂_drop_append _ _ _ agree⟩

theorem Answers.annotates {note : String → String} {m : Member TypeId} {e : String × Subschema}
    {keyName : Option String}
    (answers : b.Answers (b.Encloses u) m.type (.schema e.2 keyName (some (note e.1)))) :
    b.Annotates u note m e :=
  have noted := answers.noted e.2 keyName (note e.1) rfl
  ⟨noted.1, noted.2⟩

/-- An interface that is credited is annotated. -/
theorem annotated_of_matches {n : Node}
    (agree : (b.types.node u).form.Matches Eq (b.Answers (b.Encloses u))
      (n.interfacePlan (b.types.node u).standaloneName)) : b.Annotated u n := by
  generalize named : (b.types.node u).standaloneName = name at agree
  have params : (b.types.node u).params.Matches Eq (b.Answers (b.Encloses u))
    (.many ((n.memberNeeds name).map .member)) := agree.params
  cases made : (b.types.node u).params with
  | one t => rw [made] at params; cases params
  | value v => rw [made] at params; cases params
  | many parts =>
    rw [made] at params
    cases params with
    | many parts =>
      obtain ⟨members, rfl, all⟩ := exists_members_of_matches parts
      unfold Node.memberNeeds at all
      obtain ⟨_, additional, rfl, most, _⟩ := exists_parts_of_append all
      obtain ⟨_, definitions, rfl, both, third⟩ := exists_parts_of_append most
      obtain ⟨properties, patterns, rfl, first, second⟩ := exists_parts_of_append both
      refine ⟨properties, patterns, definitions, additional, made, ?_, ?_, ?_⟩
      · unfold Node.propertyNeeds at first
        rw [List.forall₂_map_right_iff] at first
        exact List.forall₂_eq_eq_eq ▸ List.rel_map (fun _ _ same => same.key) first
      · unfold Node.patternNeeds at second
        rw [List.forall₂_map_right_iff] at second
        rw [named]
        refine second.imp fun m e same => ?_
        have answers := same.type
        split at answers <;> exact answers.annotates
      · unfold Node.definitionNeeds at third
        rw [List.forall₂_map_right_iff] at third
        rw [named]
        exact third.imp fun m e same => same.type.annotates

/-- An interface that stands for something was made for a node. -/
theorem exists_entry_of_stands {x : Subject} (stands : b.Stands g u x)
    (interface : (b.types.node u).kind = some .interface) : ∃ e ∈ b.built, e.2 = u := by
  have leaf : ∀ s : Subschema, s.leaf ≠ some (b.types.node u).form := by
    intro s leaf
    rcases Subschema.kind_of_leaf leaf with kind | kind | kind <;>
      exact nomatch interface.symm.trans kind
  cases x with
  | schema s =>
    cases s with
    | node j => exact ⟨_, stands.2.2.2, rfl⟩
    | bool allowed => exact absurd stands.2.2 (leaf _)
    | bare v => exact absurd stands.2.2 (leaf _)
  | whole n =>
    obtain ⟨i, holds, _⟩ := stands
    exact ⟨_, holds.2.2, rfl⟩
  | part n category =>
    obtain ⟨i, _, _, entry, _⟩ := stands
    exact ⟨_, entry, rfl⟩

/-- All interfaces below a type are made for nodes and are annotated. -/
def AnnotatedBelow (b : Builder) (t : TypeId) : Prop :=
  ∀ u, b.types.Reaches t u → (b.types.node u).kind = some .interface →
    ∃ e ∈ b.built, e.2 = u ∧ b.Annotated u (b.schemas.node e.1.1)

end Builder

namespace Build

theorem annotated_typeOf (closed : g.Closed) {s : Subschema} (below : s.Below g.size) :
    Ensures (.fresh g .empty fileName) (typeOf s keyName)
      (fun t later => later.AnnotatedBelow t) fun _ _ => True := by
  cases run : typeOf s keyName (.fresh g .empty fileName) with
  | error e later => exact ensures_of_error run trivial
  | ok t later =>
    refine ensures_of_ok run fun u reached interface => ?_
    obtain ⟨continues, stands⟩ := stands_typeOf closed below run
    obtain ⟨y, standing⟩ := Builder.exists_stands_of_reaches continues.sound
      continues.all_complete stands reached
    obtain ⟨e, listed, rfl⟩ := Builder.exists_entry_of_stands standing interface
    have sound : (Builder.fresh g .empty fileName).Sound g := Builder.sound_fresh closed
    have mindful := levels_mindful g (depth g) _ s keyName sound nofun (sound.admits below)
    rcases (mindful.ok run).2.2.credited e listed with old | credited
    · cases old
    · obtain ⟨_, plan, form, planned, made, agree⟩ := credited interface
      have kind : form.kind = some .interface := agree.kind.symm.trans interface
      cases Node.interface_of_plan planned made kind
      exact ⟨e, listed, rfl, Builder.annotated_of_matches agree⟩

end Build

theorem Graph.Proper.applyRules {rules : List Rule} (listed : ∀ rule ∈ rules, rule ∈ Rule.all)
    (proper : g.Proper) (run : Graph.applyRules rules options fileName root g = .ok () h) :
    h.Proper := by
  induction rules generalizing g with
  | nil =>
    cases run
    exact proper
  | cons rule rules ih =>
    rw [applyRules_cons] at run
    split at run
    · rename_i k first
      refine ih (fun r hr => listed r (List.mem_cons_of_mem _ hr)) ?_ run
      have kept : (after (applyRule rule options fileName root g)).Proper :=
        proper_of_applyRule (listed rule List.mem_cons_self) proper
      rwa [first] at kept
    · cases run

namespace Build

theorem annotated_compileNode (proper : g.Proper) (inside : root < g.size) (options : Options) :
    Ensures (.fresh g .empty fileName) (compileNode options root)
      (fun t later => later.AnnotatedBelow t) fun _ _ => True := by
  have normalized : Ensures (.fresh g .empty fileName)
      (onSchemas (Graph.normalize options fileName root))
      (fun _ b => ∃ h : Graph, h.Proper ∧ root < h.size ∧ b = .fresh h .empty fileName)
      fun _ _ => True := by
    refine ensures_onSchemas (fun _ h run => ⟨h, ?_, ?_, rfl⟩) fun _ _ _ => trivial
    · exact proper.applyRules (fun _ listed => listed) run
    · rwa [(Graph.applyRules_ok Rule.all_shrink run).1]
  unfold compileNode
  apply ensures_get
  apply normalized.bind
  rintro _ _ ⟨h, proper, inside, rfl⟩
  exact annotated_typeOf proper.closed inside

theorem proper_ingest (d : Document) :
    Ensures ({ fileName } : Builder) (ingest d)
      (fun root b => ∃ g : Graph, g.Proper ∧ root < g.size ∧ b = .fresh g .empty fileName)
      fun _ _ => True := by
  refine ensures_onSchemas (fun root g run => ?_) fun _ _ _ => trivial
  have ends := d.ingest_ends .empty
  dsimp only at run
  split at run
  · rename_i accepted
    cases run
    have proper := Graph.proper_of_ingest Graph.Documented.empty.proper accepted
    rw [accepted] at ends
    obtain ⟨start, met, _, depicted⟩ := ends
    obtain ⟨p, made⟩ := depicted.made_of_reaches .refl
    exact ⟨_, proper, depicted.lt_size made, rfl⟩
  · cases run

/-- Every interface of a compiled document is annotated: its members for patterns and definitions
are of types whose comments contain the notes for them. The only types without are those of nodes of
a single category that were under construction when the interface was made, as the interface itself
was: their comments were written over when they were filled. -/
theorem compile_annotated (d : Document) (options : Options) (fileName : Option String)
    (run : compile d options ({ fileName } : Builder) = .ok t later)
    (reached : later.types.Reaches t u)
    (interface : (later.types.node u).kind = some .interface) :
    ∃ e ∈ later.built, e.2 = u ∧ later.Annotated u (later.schemas.node e.1.1) := by
  have annotated : Ensures ({ fileName } : Builder) (compile d options)
      (fun t later => later.AnnotatedBelow t) fun _ _ => True := by
    unfold compile
    split
    · have closed : Graph.empty.Closed := nofun
      exact annotated_typeOf closed trivial
    · apply (proper_ingest d).bind
      rintro root _ ⟨g, proper, inside, rfl⟩
      exact annotated_compileNode proper inside options
  exact annotated.ok run u reached interface

/-- An object whose pattern and definition share a schema, with another definition that leads back
to the object. -/
def referenced : Document where
  root := .obj [("$link", .str "top")]
  parts := [
    ("top", .obj [("title", .str "Top"), ("additionalProperties", .bool false),
      ("patternProperties", .obj [("^x", .obj [("$link", .str "leaf")])]),
      ("definitions", .obj [("Leaf", .obj [("$link", .str "leaf")]),
        ("List", .obj [("items", .obj [("$link", .str "top")])])])]),
    ("leaf", .obj [("title", .str "Leaf"), ("type", .str "string")])]

theorem compile_referenced : ∃ t later,
    compile referenced {} ({ fileName := some "t.json" } : Builder) = .ok t later ∧
      later.types.Reaches t t ∧ (later.types.node t).kind = some .interface ∧
        ∃ e ∈ later.built, e.2 = t ∧ later.Annotated t (later.schemas.node e.1.1) := by
  obtain ⟨t, later, run, interface⟩ := exists_of_endsIn (show endsIn
    (fun t later => decide ((later.types.node t).kind = some .interface))
    (compile referenced {} ({ fileName := some "t.json" } : Builder)) = true by decide +kernel)
  have interface := of_decide_eq_true interface
  exact ⟨t, later, run, .refl, interface,
    compile_annotated referenced {} (some "t.json") run .refl interface⟩

/-- An object that is its own definition. -/
def ownDefinition : Document where
  root := .obj [("$link", .str "top")]
  parts := [("top", .obj [("title", .str "T"), ("additionalProperties", .bool false),
    ("definitions", .obj [("Me", .obj [("$link", .str "top")])])])]

/-- The note for a definition is lost if the interface is its own definition. -/
theorem compile_unannotated : ∃ t later,
    compile ownDefinition {} ({ fileName := some "t.json" } : Builder) = .ok t later ∧
      (later.types.node t).kind = some .interface ∧ (later.types.node t).references = [t] ∧
      (∃ e ∈ later.built, e.2 = t ∧
        "Me" ∈ Entries.names ((later.schemas.node e.1.1).definitions.getD [])) ∧
      ¬ (later.types.node t).comment.Mentions
        (definitionNote (later.types.node t).standaloneName "Me") := by
  obtain ⟨t, later, run, ends⟩ := exists_of_endsIn (show endsIn
    (fun t later => decide ((later.types.node t).kind = some .interface ∧
      (later.types.node t).references = [t] ∧
      (∃ e ∈ later.built, e.2 = t ∧
        "Me" ∈ Entries.names ((later.schemas.node e.1.1).definitions.getD [])) ∧
      (later.types.node t).comment.isNull = true))
    (compile ownDefinition {} ({ fileName := some "t.json" } : Builder)) = true by decide +kernel)
  obtain ⟨interface, own, entry, bare⟩ := of_decide_eq_true ends
  refine ⟨t, later, run, interface, own, entry, ?_⟩
  rw [Json.isNull_iff.mp bare]
  rintro ⟨before, after, text⟩
  cases text

end Build
end LinkedSchema
