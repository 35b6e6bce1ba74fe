import LinkedSchema.Proofs.Build.Levels
import LinkedSchema.Proofs.Build.Naming
import LinkedSchema.Proofs.Build.Refusals
/-! Notes in comments. Later steps add to a comment, so a note stays in it, unless the type is still
to be filled: then its contents are written over the note. -/
namespace LinkedSchema

variable {g : Graph} {b c d : Builder} {t u : TypeId} {n : TypeNode} {note text : String}
  {s : Subschema} {need : Need} {e : (NodeId × Category) × TypeId}
  {excused more : TypeId → Subschema → Prop}

namespace Json

/-- A text that the other one is in. -/
def Mentions (v : Json) (note : String) : Prop := ∃ before after, v = .str (before ++ note ++ after)

/-- A comment with a note added to it. -/
def withNote (v : Json) (note : String) : Json :=
  .str (if v.truthy then v.plain ++ "\n\n" ++ note else note)

theorem mentions_withNote (v : Json) (note : String) : (v.withNote note).Mentions note := by
  unfold withNote
  split
  · exact ⟨v.plain ++ "\n\n", "", by rw [String.append_empty]⟩
  · exact ⟨"", "", by rw [String.append_empty, String.empty_append]⟩

theorem Mentions.withNote {v : Json} (mentions : v.Mentions text) (note : String) :
    (v.withNote note).Mentions text := by
  obtain ⟨before, after, rfl⟩ := mentions
  unfold Json.withNote
  split
  · refine ⟨before, after ++ ("\n\n" ++ note), ?_⟩
    simp only [plain, String.append_assoc]
  · rename_i empty
    -- the text that is mentioned is empty like the comment
    obtain ⟨_, none, _⟩ : before = "" ∧ text = "" ∧ after = "" := by simpa [truthy] using empty
    exact ⟨"", note, by rw [none, String.append_empty, String.empty_append]⟩

end Json

namespace TypeGraph

variable {types later : TypeGraph} {v w : TypeId}

/-- What the new contents of a type have in common with the old ones, all types keep. -/
theorem node_set_like {α : Type} (f : TypeNode → α) (inside : t < types.size)
    (same : f n = f (types.node t)) (u : TypeId) :
    f ((types.set t n).node u) = f (types.node u) := by
  by_cases here : t = u
  · subst here
    rw [node_set_self inside, same]
  · rw [node_set_ne here]

/-- All references are to types of the graph. -/
def Closed (types : TypeGraph) : Prop :=
  ∀ t < types.size, ∀ u ∈ (types.node t).references, u < types.size

theorem Refers.lt_size (refers : types.Refers v w) : v < types.size := by
  by_contra beyond
  have edge : w ∈ (types.node v).references := refers
  rw [node_of_le (Nat.le_of_not_lt beyond)] at edge
  cases edge

theorem Refers.set (bare : (types.node t).references = []) (refers : types.Refers v w) :
    (types.set t n).Refers v w := by
  have differs : t ≠ v := by
    rintro rfl
    have edge : w ∈ (types.node t).references := refers
    rw [bare] at edge
    cases edge
  show w ∈ ((types.set t n).node v).references
  rwa [node_set_ne differs]

/-- A type leads to another one by way of types that are not older than itself. -/
def Spawns (types : TypeGraph) (t : TypeId) : TypeId → Prop :=
  Relation.ReflTransGen (fun v w => types.Refers v w ∧ t ≤ w) t

theorem Spawns.mono (more : ∀ v w, types.Refers v w → later.Refers v w) (spawns : types.Spawns t u) :
    later.Spawns t u :=
  Relation.ReflTransGen.mono (fun v w edge => ⟨more v w edge.1, edge.2⟩) _ _ spawns

/-- When older types refer to older ones only, all types that are not older are led to by way of
such types. -/
theorem spawns_of_reaches (older : ∀ v < t, ∀ w ∈ (types.node v).references, w < t)
    (reached : types.Reaches t u) (new : t ≤ u) : types.Spawns t u := by
  induction reached with
  | refl => exact .refl
  | @tail v w _ refers ih =>
    by_cases old : v < t
    · exact absurd (older v old w refers) (Nat.not_lt.mpr new)
    · exact (ih (Nat.le_of_not_lt old)).tail ⟨refers, new⟩

theorem Closed.set (closed : types.Closed) (refers : ∀ u ∈ n.references, u < types.size) :
    (types.set t n).Closed := by
  intro v inside w edge
  rw [size_set] at inside ⊢
  by_cases here : t = v
  · subst here
    rw [node_set_self inside] at edge
    exact refers w edge
  · rw [node_set_ne here] at edge
    exact closed v inside w edge

theorem Closed.push (closed : types.Closed) (bare : n.references = []) : (types.push n).Closed := by
  intro v inside w edge
  rw [size_push] at inside ⊢
  rcases Nat.lt_succ_iff_lt_or_eq.mp inside with old | rfl
  · rw [node_push_of_lt old] at edge
    exact Nat.lt_succ_of_lt (closed v old w edge)
  · rw [node_push_self, bare] at edge
    cases edge

end TypeGraph

namespace Builder

/-- The schema is a node of one category whose type was under construction when the other type was
made: it leads to the other one by way of types that are not older, or is the same. -/
structure Encloses (b : Builder) (u t : TypeId) (s : Subschema) : Prop where
  single : ∃ j category, s = .node j ∧ (b.schemas.node j).categories = [category] ∧
    ((j, category), t) ∈ b.built
  spawns : b.types.Spawns t u

/-- A type that was made for a need. Where a note is called for, it is in the comment of the type,
unless that is excused. -/
structure Answers (b : Builder) (excused : TypeId → Subschema → Prop) (t : TypeId) (need : Need) :
    Prop where
  inside : t < b.types.size
  noted : ∀ s keyName note, need = .schema s keyName (some note) →
    b.Shows t s ∧ ((b.types.node t).comment.Mentions note ∨ excused t s)

/-- The type of an entry, if it is an interface, is made after a plan of its node, and all notes of
the plan are there. -/
def Credited (b : Builder) (e : (NodeId × Category) × TypeId) : Prop :=
  (b.types.node e.2).kind = some .interface → ∃ fileName plan form,
    (b.schemas.node e.1.1).plan e.1.1 fileName e.1.2 = .ok plan ∧
    plan (b.types.node e.2).standaloneName = .ok form ∧
    (b.types.node e.2).form.Matches Eq (b.Answers (b.Encloses e.2)) form

/-- What a later state keeps of the references, the names and the comments of types, and what it says
of entries added since. -/
structure Heeds (b later : Builder) : Prop where
  closed : b.types.Closed → later.types.Closed
  name : ∀ t < b.types.size,
    (later.types.node t).standaloneName = (b.types.node t).standaloneName
  mentions : ∀ t < b.types.size, ∀ note, (b.types.node t).comment.Mentions note →
    (later.types.node t).comment.Mentions note
  credited : ∀ e ∈ later.built, e ∈ b.built ∨ later.Credited e

theorem Shows.lt_size (sound : b.Sound g) (shows : b.Shows t s) : t < b.types.size := by
  cases s with
  | node j => exact (sound.built _ shows.2.2).2
  | bool allowed => exact shows.1
  | bare v => exact shows.1

theorem KeepsForms.refers {v w : TypeId} (keeps : b.KeepsForms c) (refers : b.types.Refers v w) :
    c.types.Refers v w := by
  have same := congrArg Form.references (keeps v refers.lt_size)
  rw [TypeNode.references_form, TypeNode.references_form] at same
  show w ∈ (c.types.node v).references
  rw [same]
  exact refers

theorem Encloses.later (continues : b.Continues g c) (sound : b.Sound g)
    (encloses : b.Encloses u t s) : c.Encloses u t s where
  single := by
    obtain ⟨j, category, same, only, entry⟩ := encloses.single
    refine ⟨j, category, same, ?_, continues.grows.built.subset entry⟩
    rwa [continues.grows.node j (sound.built _ entry).1]
  spawns := encloses.spawns.mono fun _ _ => continues.keeps.refers

theorem Answers.later (answers : b.Answers excused t need) (continues : b.Continues g c)
    (heeds : b.Heeds c) (still : ∀ s, excused t s → more t s) : c.Answers more t need where
  inside := Nat.lt_of_lt_of_le answers.inside continues.grows.types
  noted s keyName note same := by
    obtain ⟨shows, noted⟩ := answers.noted s keyName note same
    refine ⟨continues.grows.shows (fun inside _ => continues.keeps t inside) shows, ?_⟩
    exact noted.imp (heeds.mentions t answers.inside note) (still s)

/-- What is said of an entry stays true. -/
theorem Credited.later (credited : b.Credited e) (sound : b.Sound g) (listed : e ∈ b.built)
    (continues : b.Continues g c) (heeds : b.Heeds c) : c.Credited e := by
  obtain ⟨node, inside⟩ := sound.built e listed
  have same := continues.keeps e.2 inside
  intro kind
  have kind' : (b.types.node e.2).kind = some .interface :=
    (congrArg Form.kind same).symm.trans kind
  obtain ⟨fileName, plan, form, planned, made, agree⟩ := credited kind'
  refine ⟨fileName, plan, form, ?_, ?_, ?_⟩
  · rwa [continues.grows.node e.1.1 node]
  · rwa [heeds.name e.2 inside]
  · rw [same]
    exact agree.imp fun t need answers => answers.later continues heeds fun s encloses =>
      encloses.later continues sound

namespace Heeds

theorem of_same (types : c.types = b.types) (built : c.built = b.built) : b.Heeds c where
  closed closed := types ▸ closed
  name t _ := by rw [types]
  mentions t _ note mentions := by rwa [types]
  credited e listed := .inl (built ▸ listed)

theorem refl (b : Builder) : b.Heeds b := .of_same rfl rfl

theorem trans (first : b.Heeds c) (grown : b.types.size ≤ c.types.size) (sound : c.Sound g)
    (continues : c.Continues g d) (next : c.Heeds d) : b.Heeds d where
  closed closed := next.closed (first.closed closed)
  name t inside := (next.name t (Nat.lt_of_lt_of_le inside grown)).trans (first.name t inside)
  mentions t inside note mentions :=
    next.mentions t (Nat.lt_of_lt_of_le inside grown) note (first.mentions t inside note mentions)
  credited e listed := by
    rcases next.credited e listed with old | credited
    · exact (first.credited e old).imp_right fun credited =>
        credited.later sound old continues next
    · exact .inr credited

theorem push (bare : n.references = []) : b.Heeds { b with types := b.types.push n } where
  closed closed := closed.push bare
  name t inside := congrArg TypeNode.standaloneName (TypeGraph.node_push_of_lt inside n)
  mentions t inside note mentions := by
    show ((b.types.push n).node t).comment.Mentions note
    rwa [TypeGraph.node_push_of_lt inside]
  credited e listed := .inl listed

end Heeds

/-- A type that gets other contents goes on to answer, if the notes on it are not lost, or that is
excused. -/
theorem Answers.filled {v : TypeId} (answers : b.Answers excused v need) (isOpen : b.Open t)
    (still : ∀ s, excused v s → more v s)
    (spared : ∀ s note, b.Shows t s → (b.types.node t).comment.Mentions note →
      n.comment.Mentions note ∨ more t s) : (b.filled t n).Answers more v need where
  inside := Nat.lt_of_lt_of_eq answers.inside (TypeGraph.size_set _ _ _).symm
  noted s keyName note asked := by
    obtain ⟨shows, noted⟩ := answers.noted s keyName note asked
    refine ⟨(grows_filled n).shows (fun _ leaf => isOpen.leaf_filled n leaf) shows, ?_⟩
    rcases noted with mentions | excuse
    · by_cases here : t = v
      · subst here
        refine (spared s note shows mentions).imp_left fun mentions => ?_
        show ((b.types.set t n).node t).comment.Mentions note
        rwa [TypeGraph.node_set_self answers.inside]
      · refine .inl ?_
        show ((b.types.set t n).node v).comment.Mentions note
        rwa [TypeGraph.node_set_ne here]
    · exact .inr (still s excuse)

theorem Credited.filled (credited : b.Credited e) (other : t ≠ e.2)
    (bare : (b.types.node t).references = []) (isOpen : b.Open t)
    (spared : ∀ s note, b.Shows t s → (b.types.node t).comment.Mentions note →
      n.comment.Mentions note ∨ (b.filled t n).Encloses e.2 t s) : (b.filled t n).Credited e := by
  have same : (b.filled t n).types.node e.2 = b.types.node e.2 := TypeGraph.node_set_ne other n
  intro kind
  rw [same] at kind
  obtain ⟨fileName, plan, form, planned, made, agree⟩ := credited kind
  refine ⟨fileName, plan, form, planned, by rwa [same], ?_⟩
  rw [same]
  refine agree.imp fun v need answers => answers.filled isOpen (fun s encloses => ?_) spared
  exact ⟨encloses.single, encloses.spawns.mono fun _ _ refers => refers.set bare⟩

end Builder
end LinkedSchema
