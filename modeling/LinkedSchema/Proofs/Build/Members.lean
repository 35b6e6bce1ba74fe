import LinkedSchema.Proofs.Build.Amending
import LinkedSchema.Proofs.Build.Repeats
import LinkedSchema.Proofs.Build.Sessions
/-! The members of interfaces: one for each property, each pattern and each definition of the node,
in this order, and at most one more for all names that are not listed. -/
namespace LinkedSchema

variable {g : Graph} {b c : Builder} {i : NodeId} {t u : TypeId} {n : Node} {s : Subschema}
  {category : Category} {keyName : Option String}

theorem Json.isStr_iff {v : Json} {text : String} : v.isStr text = true ↔ v = .str text := by
  cases v <;> simp [Json.isStr]

namespace Node

/-- A key that the node lists as required. -/
def Requires (n : Node) (key : String) : Prop := ∃ names, n.required = .arr names ∧ .str key ∈ names

def HasSinglePattern (n : Node) : Prop := ∃ e, n.patternProperties = some [e]

/-- The only pattern of the node stands for all names not listed: nothing is said of additional
properties, or that there are none. -/
def CatchesAll (n : Node) : Prop :=
  n.HasSinglePattern ∧
    (n.additionalProperties = none ∨ n.additionalProperties = some (.bool false))

theorem isRequired_iff {key : String} : Build.isRequired n key = true ↔ n.Requires key := by
  unfold Build.isRequired Requires
  cases n.required with
  | arr names => simp [Json.isStr_iff]
  | _ => simp

theorem hasSinglePattern_iff : Build.hasSinglePattern n = true ↔ n.CatchesAll := by
  unfold Build.hasSinglePattern CatchesAll HasSinglePattern
  cases n.patternProperties with
  | none => simp
  | some patterns =>
    cases patterns with
    | nil => simp
    | cons e rest =>
      cases rest with
      | cons => simp
      | nil =>
        cases n.additionalProperties with
        | none => simp
        | some s =>
          cases s with
          | bool allowed => cases allowed <;> simp
          | _ => simp

end Node

/-- All states of a run of calls are in order, and the nodes of the graph are as they were. -/
theorem Graph.Session.orderly (closed : g.Closed) (session : g.Session b) :
    b.Orderly ∧ g.size ≤ b.schemas.size ∧ ∀ i < g.size, b.schemas.node i = g.node i := by
  have call {b c : Builder} (before : b.Orderly ∧ g.size ≤ b.schemas.size ∧
        ∀ i < g.size, b.schemas.node i = g.node i) (amends : b.Amends c) :
      c.Orderly ∧ g.size ≤ c.schemas.size ∧ ∀ i < g.size, c.schemas.node i = g.node i := by
    obtain ⟨_, size, node⟩ := before
    refine ⟨amends.orderly, Nat.le_trans size amends.retains.size, fun i inside => ?_⟩
    rw [amends.retains.node i (Nat.lt_of_lt_of_le inside size), node i inside]
  induction session with
  | start types fileName usedNames definitions =>
    exact ⟨⟨⟨closed, .nil, .nil, nofun, nofun, nofun⟩, nofun, nofun⟩, Nat.le_refl _, fun _ _ => rfl⟩
  | anew root fileName usedNames definitions _ ih =>
    obtain ⟨⟨tame, inside, furnished⟩, kept⟩ := ih
    exact ⟨⟨{ tame with stripped := nofun, narrowed := nofun }, inside, furnished⟩, kept⟩
  | returned _ below run ih =>
    have known := below.mono ih.2.1
    exact call ih ((Build.levels_amending _ _ _ _ ih.1 known).ok run).1
  | failed _ below run ih =>
    have known := below.mono ih.2.1
    exact call ih ((Build.levels_amending _ _ _ _ ih.1 known).error run)

namespace Builder

/-- What a call for the schema under the key returns from now on: the type itself, if it is a
node, and otherwise a type with the same contents, but for notes. -/
def Returns (b : Builder) (s : Subschema) (keyName : Option String) (t : TypeId) : Prop :=
  t < b.types.size ∧ ∃ u later, Build.typeOf s keyName b = .ok u later ∧
    (∀ j, s = .node j → u = t) ∧ later.Carries t (later.types.node u)

theorem Gives.returns (orderly : b.Orderly) (gives : b.Gives t keyName s) :
    b.Returns s keyName t := by
  have made {n : TypeNode} (filled : n.kind ≠ none) (carries : b.Carries t n) :
      t < b.types.size ∧ Carries { b with types := b.types.push n } t
        ((b.types.push n).node b.types.size) := by
    have inside := carries.lt_size filled
    obtain ⟨comment, same⟩ := carries
    refine ⟨inside, comment, ?_⟩
    rw [TypeGraph.node_push_self, ← same]
    exact TypeGraph.node_push_of_lt inside n
  cases s with
  | node j =>
    obtain ⟨_, entry⟩ := gives
    refine ⟨orderly.tame.types _ entry, t, _,
      Build.typeOf_remembered orderly.tame.keysOnce entry keyName, fun _ _ => rfl, ?_⟩
    exact ⟨(b.types.node t).comment, rfl⟩
  | bool allowed =>
    obtain ⟨inside, carries⟩ := made (Option.some_ne_none _) gives
    exact ⟨inside, _, _, rfl, nofun, carries⟩
  | bare v =>
    obtain ⟨inside, carries⟩ := made (Option.some_ne_none _) gives
    exact ⟨inside, _, _, rfl, nofun, carries⟩

/-- A member for an entry of a node: it has the key and the type of the entry, and is required if
the node says so. -/
structure Enrolls (b : Builder) (n : Node) (m : Member TypeId) (e : String × Subschema) : Prop where
  key : m.key = e.1
  isRequired : m.isRequired = true ↔ n.Requires e.1
  type : b.Returns e.2 (some e.1) m.type

/-- A member that stands for all names not listed, with the type of a schema found under a key. -/
structure CatchAll (b : Builder) (m : Member TypeId) (found : String) (s : Subschema) : Prop where
  key : m.key = indexKey
  isRequired : m.isRequired = true
  isPattern : m.isPattern = false
  isUnreachable : m.isUnreachable = false
  type : b.Returns s (some found) m.type

/-- The members of an interface that is made for a node, in four groups. -/
structure Membered (b : Builder) (n : Node)
    (properties patterns definitions additional : List (Member TypeId)) : Prop where
  properties : List.Forall₂ (fun m e => b.Enrolls n m e ∧ m.isPattern = false ∧
    m.isUnreachable = false) properties (n.properties.getD [])
  single : n.CatchesAll →
    List.Forall₂ (fun m e => b.CatchAll m e.1 e.2) patterns (n.patternProperties.getD [])
  patterns : ¬ n.CatchesAll → List.Forall₂ (fun m e => b.Enrolls n m e ∧ m.isPattern = true ∧
    m.isUnreachable = false) patterns (n.patternProperties.getD [])
  definitions : List.Forall₂ (fun m e => b.Enrolls n m e ∧ m.isPattern = false ∧
    m.isUnreachable = true) definitions (n.definitions.getD [])
  typed : ∀ j, n.additionalProperties = some (.node j) →
    ∃ m, additional = [m] ∧ b.CatchAll m indexKey (.node j)
  anything : n.additionalProperties = none ∨ n.additionalProperties = some (.bool true) →
    ¬ n.CatchesAll → ∃ m, additional = [m] ∧ b.CatchAll m indexKey (.bool true)
  nothing : n.additionalProperties = some (.bool false) ∨ n.CatchesAll → additional = []

/-- The member of an interface that is made for an entry of the node. -/
theorem enrolls_of_matches (orderly : b.Orderly) {m : Member TypeId} {e : String × Subschema}
    {note : Option String} {isPattern isUnreachable : Bool}
    (agree : m.Matches b.Supplies { key := e.1, type := .schema e.2 (some e.1) note
                                    isRequired := Build.isRequired n e.1, isPattern
                                    isUnreachable }) :
    b.Enrolls n m e ∧ m.isPattern = isPattern ∧ m.isUnreachable = isUnreachable := by
  refine ⟨⟨agree.key, ?_, Gives.returns orderly agree.type⟩, agree.isPattern, agree.isUnreachable⟩
  rw [agree.isRequired]
  exact Node.isRequired_iff

theorem catchAll_of_matches (orderly : b.Orderly) {m : Member TypeId} {found : String}
    {need : Need} (supplied : ∀ t, b.Supplies t need → b.Gives t (some found) s)
    (agree : m.Matches b.Supplies { key := indexKey, type := need, isRequired := true }) :
    b.CatchAll m found s where
  key := agree.key
  isRequired := agree.isRequired
  isPattern := agree.isPattern
  isUnreachable := agree.isUnreachable
  type := (supplied _ agree.type).returns orderly

/-- Members that are supplied as the node needs them are those that it calls for. -/
theorem membered_of_matches (orderly : b.Orderly) {name : Option String}
    {properties patterns definitions additional : List (Member TypeId)}
    (first : List.Forall₂ (Member.Matches b.Supplies) properties n.propertyNeeds)
    (second : List.Forall₂ (Member.Matches b.Supplies) patterns (n.patternNeeds name))
    (third : List.Forall₂ (Member.Matches b.Supplies) definitions (n.definitionNeeds name))
    (fourth : List.Forall₂ (Member.Matches b.Supplies) additional n.additionalNeeds) :
    b.Membered n properties patterns definitions additional where
  properties := by
    unfold Node.propertyNeeds at first
    rw [List.forall₂_map_right_iff] at first
    exact first.imp fun m e agree => enrolls_of_matches orderly agree
  single catches := by
    unfold Node.patternNeeds at second
    rw [List.forall₂_map_right_iff] at second
    refine second.imp fun m e agree => ?_
    rw [if_pos (Node.hasSinglePattern_iff.mpr catches)] at agree
    exact catchAll_of_matches orderly (fun _ => id) agree
  patterns other := by
    unfold Node.patternNeeds at second
    rw [List.forall₂_map_right_iff] at second
    refine second.imp fun m e agree => ?_
    rw [if_neg (mt Node.hasSinglePattern_iff.mp other)] at agree
    exact enrolls_of_matches orderly agree
  definitions := by
    unfold Node.definitionNeeds at third
    rw [List.forall₂_map_right_iff] at third
    exact third.imp fun m e agree => enrolls_of_matches orderly agree
  typed j given := by
    simp only [Node.additionalNeeds, given] at fourth
    obtain ⟨m, _, agree, rest, rfl⟩ := List.forall₂_cons_right_iff.mp fourth
    cases rest
    exact ⟨m, rfl, catchAll_of_matches orderly (fun _ => id) agree⟩
  anything given other := by
    have needs : n.additionalNeeds =
        [{ key := indexKey, type := .any (some indexKey), isRequired := true }] := by
      unfold Node.additionalNeeds
      rcases given with given | given <;>
        rw [given, if_neg (mt Node.hasSinglePattern_iff.mp other)]
    rw [needs] at fourth
    obtain ⟨m, _, agree, rest, rfl⟩ := List.forall₂_cons_right_iff.mp fourth
    cases rest
    exact ⟨m, rfl, catchAll_of_matches orderly (fun _ => id) agree⟩
  nothing given := by
    have needs : n.additionalNeeds = [] := by
      unfold Node.additionalNeeds
      rcases given with given | ⟨single, given | given⟩
      · rw [given]
      · rw [given, if_pos (Node.hasSinglePattern_iff.mpr ⟨single, .inl given⟩)]
      · rw [given]
    rw [needs] at fourth
    exact List.forall₂_nil_right_iff.mp fourth

/-- The members for all names not listed: those for patterns that are not marked as such, and the
ones for additional properties. -/
def generated (patterns additional : List (Member TypeId)) : List (Member TypeId) :=
  patterns.filter (!·.isPattern) ++ additional

namespace Membered

variable {properties patterns definitions additional : List (Member TypeId)}
  (membered : b.Membered n properties patterns definitions additional)
include membered

theorem generated_of_catchesAll (catches : n.CatchesAll) :
    ∃ m, generated patterns additional = [m] := by
  obtain ⟨e, single⟩ := catches.1
  have members := membered.single catches
  rw [single, Option.getD_some] at members
  obtain ⟨m, _, catchAll, rest, rfl⟩ := List.forall₂_cons_right_iff.mp members
  cases rest
  refine ⟨m, ?_⟩
  rw [generated, membered.nothing (.inr catches)]
  simp [catchAll.isPattern]

theorem generated_of_not_catchesAll (other : ¬ n.CatchesAll) :
    generated patterns additional = additional := by
  have none : patterns.filter (!·.isPattern) = [] := by
    refine List.filter_eq_nil_iff.mpr fun m listed => ?_
    obtain ⟨e, made⟩ := exists_of_forall₂ (membered.patterns other) m listed
    simp [made.2.1]
  rw [generated, none, List.nil_append]

/-- At most one member stands for all names not listed, and there is none just if the node admits no
additional properties and has not exactly one pattern. -/
theorem generated_spec (declared : ∀ v, n.additionalProperties ≠ some (.bare v)) :
    (generated patterns additional).length ≤ 1 ∧ (generated patterns additional = [] ↔
      n.additionalProperties = some (.bool false) ∧ ¬ n.HasSinglePattern) := by
  by_cases catches : n.CatchesAll
  · obtain ⟨m, one⟩ := membered.generated_of_catchesAll catches
    rw [one]
    exact ⟨Nat.le_refl 1, nofun, fun closed => absurd catches.1 closed.2⟩
  · rw [membered.generated_of_not_catchesAll catches]
    by_cases closed : n.additionalProperties = some (.bool false)
    · rw [membered.nothing (.inl closed)]
      exact ⟨Nat.zero_le 1, fun _ => ⟨closed, fun single => catches ⟨single, .inr closed⟩⟩,
        fun _ => rfl⟩
    · have one : ∃ m, additional = [m] := by
        cases given : n.additionalProperties with
        | none => exact (membered.anything (.inl given) catches).imp fun _ => And.left
        | some s =>
          cases s with
          | node j => exact (membered.typed j given).imp fun _ => And.left
          | bare v => exact absurd given (declared v)
          | bool allowed =>
            cases allowed with
            | true => exact (membered.anything (.inr given) catches).imp fun _ => And.left
            | false => exact absurd given closed
      obtain ⟨m, rfl⟩ := one
      exact ⟨Nat.le_refl 1, nofun, fun no => absurd no.1 closed⟩

end Membered

theorem membered_of_furnished (orderly : b.Orderly) (entry : ((i, category), u) ∈ b.built)
    (interface : (b.types.node u).kind = some .interface) :
    ∃ properties patterns definitions additional,
      (b.types.node u).params =
        .many ((properties ++ patterns ++ definitions ++ additional).map .member) ∧
      b.Membered (b.schemas.node i) properties patterns definitions additional := by
  obtain ⟨name, agree⟩ := orderly.furnished _ entry interface
  have params : (b.types.node u).params.Matches Eq b.Supplies
    (.many (((b.schemas.node i).memberNeeds name).map .member)) := agree.params
  generalize made : (b.types.node u).params = given at params
  cases params with
  | many parts =>
    obtain ⟨members, rfl, all⟩ := exists_members_of_matches parts
    unfold Node.memberNeeds at all
    obtain ⟨_, additional, rfl, most, fourth⟩ := exists_parts_of_append all
    obtain ⟨_, definitions, rfl, both, third⟩ := exists_parts_of_append most
    obtain ⟨properties, patterns, rfl, first, second⟩ := exists_parts_of_append both
    exact ⟨properties, patterns, definitions, additional, rfl,
      membered_of_matches orderly first second third fourth⟩

end Builder

namespace Build

/-- After any calls on the schemas of a graph, some of which may have failed, every interface that
was built for a node or a copy of one has the members that it calls for and no others. Only fields
of their declared types are assumed: what is said of additional properties is a schema. -/
theorem session_interface (closed : g.Closed) (session : g.Session b)
    (entry : ((i, category), u) ∈ b.built)
    (interface : (b.types.node u).kind = some .interface)
    (declared : ∀ v, (b.schemas.node i).additionalProperties ≠ some (.bare v)) :
    (i < g.size → b.schemas.node i = g.node i) ∧
    ∃ properties patterns definitions additional,
      (b.types.node u).params =
        .many ((properties ++ patterns ++ definitions ++ additional).map .member) ∧
      b.Membered (b.schemas.node i) properties patterns definitions additional ∧
      (Builder.generated patterns additional).length ≤ 1 ∧
      (Builder.generated patterns additional = [] ↔
        (b.schemas.node i).additionalProperties = some (.bool false) ∧
          ¬ (b.schemas.node i).HasSinglePattern) := by
  obtain ⟨orderly, _, node⟩ := session.orderly closed
  obtain ⟨properties, patterns, definitions, additional, params, membered⟩ :=
    Builder.membered_of_furnished orderly entry interface
  obtain ⟨few, none⟩ := membered.generated_spec declared
  exact ⟨node i, properties, patterns, definitions, additional, params, membered, few, none⟩

/-- A record that leads to itself, with one pattern and nothing but it and the properties. -/
def register : Graph := ⟨#[
  { title := .str "entry", type := .str "object", required := .arr [.str "next", .str "Size"]
    properties := some [("next", .node 0), ("flag", .bool true)]
    patternProperties := some [("^x", .node 1)], definitions := some [("Size", .node 1)]
    additionalProperties := some (.bool false) },
  { type := .str "number", parent := some 0 }]⟩

/-- The interface of the record has the pattern for all names not listed. -/
theorem session_register : ∃ b u, register.Session b ∧ ((0, .unnamedSchema), u) ∈ b.built ∧
    (b.types.node u).kind = some .interface ∧
    (∀ v, (b.schemas.node 0).additionalProperties ≠ some (.bare v)) ∧
    ∃ properties patterns definitions additional,
      (b.types.node u).params =
        .many ((properties ++ patterns ++ definitions ++ additional).map .member) ∧
      b.Membered (register.node 0) properties patterns definitions additional ∧
      Builder.generated patterns additional ≠ [] := by
  have closed : register.Closed := by decide +kernel
  obtain ⟨t, b, run, ends⟩ := exists_of_endsIn (show endsIn
    (fun t b => decide (((0, .unnamedSchema), t) ∈ b.built ∧
      (b.types.node t).kind = some .interface))
    (typeOf (.node 0) none (.fresh register .empty none)) = true by decide +kernel)
  obtain ⟨entry, interface⟩ := of_decide_eq_true ends
  have session : register.Session b :=
    .returned (.start .empty none [] [])
      (show Subschema.Below register.size (.node 0) by decide) run
  have node : b.schemas.node 0 = register.node 0 := (session.orderly closed).2.2 0 (by decide)
  have given : (register.node 0).additionalProperties = some (.bool false) := rfl
  have declared : ∀ v, (b.schemas.node 0).additionalProperties ≠ some (.bare v) := by
    rw [node, given]
    exact nofun
  obtain ⟨_, properties, patterns, definitions, additional, params, membered, _, none⟩ :=
    session_interface closed session entry interface declared
  rw [node] at membered none
  have single : (register.node 0).HasSinglePattern := ⟨_, rfl⟩
  exact ⟨b, t, session, entry, interface, declared, properties, patterns, definitions, additional,
    params, membered, fun empty => (none.mp empty).2 single⟩

end Build
end LinkedSchema
