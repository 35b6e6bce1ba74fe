import LinkedSchema.Proofs.Build.Remarks
import LinkedSchema.Proofs.Build.Outcomes
/-! What builds write into comments. Every step of a build whose schemas speak in certain texts
leaves comments made of these texts, and adds only schemas that speak in them. -/
namespace LinkedSchema

variable {ok : String → Prop} {b c d : Builder} {i : NodeId} {t : TypeId} {n : TypeNode}

/-- Texts that may stand one after the other, with a blank line between them. -/
def Joins (ok : String → Prop) : Prop :=
  ∀ text more, ok text → ok more → ok (text ++ "\n\n" ++ more)

namespace TypeGraph

variable {g : TypeGraph}

theorem comments_set (comments : ∀ u, IsComment ok (g.node u).comment)
    (comment : IsComment ok n.comment) (u : TypeId) : IsComment ok ((g.set t n).node u).comment := by
  by_cases same : t = u
  · subst same
    by_cases inside : t < g.size
    · rwa [node_set_self inside]
    · rw [node_of_le (by rw [size_set]; exact Nat.le_of_not_lt inside)]
      exact .inl rfl
  · rw [node_set_ne same]
    exact comments u

theorem comments_push (comments : ∀ u, IsComment ok (g.node u).comment)
    (comment : IsComment ok n.comment) (u : TypeId) : IsComment ok ((g.push n).node u).comment := by
  rcases Nat.lt_trichotomy u g.size with old | rfl | beyond
  · rw [node_push_of_lt old]
    exact comments u
  · rwa [node_push_self]
  · rw [node_of_le (by rw [size_push]; exact beyond)]
    exact .inl rfl

end TypeGraph

namespace Builder

/-- A state with comments made of the texts, whose copies of nodes speak in them. -/
structure Quiet (ok : String → Prop) (b : Builder) : Prop where
  comments : ∀ t, IsComment ok (b.types.node t).comment
  stripped : ∀ e ∈ b.stripped, b.schemas.Calm ok e.2
  narrowed : ∀ e ∈ b.narrowed, b.schemas.Calm ok e.2

/-- A later state that is quiet as well, and in which all that was calm still is. -/
structure Stays (ok : String → Prop) (b later : Builder) : Prop where
  quiet : later.Quiet ok
  calm : ∀ i, b.schemas.Calm ok i → later.schemas.Calm ok i

theorem Quiet.stays (quiet : b.Quiet ok) : b.Stays ok b := ⟨quiet, fun _ calm => calm⟩

theorem Stays.trans (first : b.Stays ok c) (second : c.Stays ok d) : b.Stays ok d :=
  ⟨second.quiet, fun i calm => second.calm i (first.calm i calm)⟩

/-- Other types with such comments leave a state quiet. -/
theorem Quiet.of_types (quiet : b.Quiet ok) (schemas : c.schemas = b.schemas)
    (stripped : c.stripped = b.stripped) (narrowed : c.narrowed = b.narrowed)
    (comments : ∀ t, IsComment ok (c.types.node t).comment) : b.Stays ok c where
  quiet := {
    comments
    stripped := by rw [stripped, schemas]; exact quiet.stripped
    narrowed := by rw [narrowed, schemas]; exact quiet.narrowed }
  calm := by rw [schemas]; exact fun _ calm => calm

theorem Quiet.of_same (quiet : b.Quiet ok) (schemas : c.schemas = b.schemas)
    (stripped : c.stripped = b.stripped) (narrowed : c.narrowed = b.narrowed)
    (types : c.types = b.types) : b.Stays ok c :=
  quiet.of_types schemas stripped narrowed (types ▸ quiet.comments)

end Builder

namespace Build

variable {α β : Type} {step : Build α} {post : α → Builder → Prop}

/-- From this state, the step keeps the comments to the texts, and what it makes is as it should
be. -/
def Quietly (ok : String → Prop) (b : Builder) (step : Build α) (post : α → Builder → Prop) : Prop :=
  Ensures b step (fun a later => b.Stays ok later ∧ post a later) fun _ _ => True

theorem quietly_pure (quiet : b.Quiet ok) {a : α} (holds : post a b) :
    Quietly ok b (pure a) post := ensures_pure ⟨quiet.stays, holds⟩

theorem Quietly.bind {next : α → Build β} {last : β → Builder → Prop}
    (first : Quietly ok b step post)
    (rest : ∀ a later, b.Stays ok later → post a later → Quietly ok later (next a) last) :
    Quietly ok b (step >>= next) last := by
  apply Ensures.bind first
  rintro a c ⟨stays, holds⟩
  exact (rest a c stays holds).imp (fun _ _ h => ⟨stays.trans h.1, h.2⟩) fun _ _ h => h

theorem quietly_addType (quiet : b.Quiet ok) (comment : IsComment ok n.comment) :
    Quietly ok b (addType n) fun _ _ => True :=
  ⟨quiet.of_types rfl rfl rfl (TypeGraph.comments_push quiet.comments comment), trivial⟩

theorem quietly_fill (quiet : b.Quiet ok) (comment : IsComment ok n.comment) :
    Quietly ok b (fill t n) fun _ _ => True :=
  ⟨quiet.of_types rfl rfl rfl (TypeGraph.comments_set quiet.comments comment), trivial⟩

theorem quietly_setParams (quiet : b.Quiet ok) {params : Params} :
    Quietly ok b (setParams t params) fun _ _ => True :=
  ⟨quiet.of_types rfl rfl rfl (TypeGraph.comments_set quiet.comments (quiet.comments t)), trivial⟩

theorem quietly_reserve (quiet : b.Quiet ok) {category : Category} :
    Quietly ok b (reserve i category) fun _ _ => True :=
  ⟨quiet.of_types rfl rfl rfl (TypeGraph.comments_push quiet.comments (.inl rfl)), trivial⟩

theorem quietly_noteRoot (quiet : b.Quiet ok) : Quietly ok b (noteRoot i) fun _ _ => True :=
  ⟨quiet.of_same rfl rfl rfl rfl, trivial⟩

theorem quietly_definitionKey (quiet : b.Quiet ok) :
    Quietly ok b (definitionKey i) fun _ _ => True :=
  ensures_definitionKey fun _ _ => ⟨quiet.of_same rfl rfl rfl rfl, trivial⟩

theorem quietly_standaloneName (quiet : b.Quiet ok) {n : Node} {key : Option String} :
    Quietly ok b (standaloneName n key) fun name _ => IsOwner name := by
  refine ensures_standaloneName (fun _ => ⟨quiet.stays, nofun⟩) (fun _ text => ?_) fun _ => trivial
  refine ⟨quiet.of_same rfl rfl rfl rfl, ?_⟩
  rintro _ ⟨⟩
  exact UsedNames.isNameChar_allocate _ _

/-- The copy of a calm node is calm. -/
theorem quietly_strip (quiet : b.Quiet ok) (calm : b.schemas.Calm ok i) :
    Quietly ok b (strip i) fun copy later => later.schemas.Calm ok copy := by
  refine ensures_strip (fun copy found => ?_) fun _ => ?_
  · exact ⟨quiet.stays, quiet.stripped _ (mem_of_lookup found)⟩
  · have copied : (b.schemas.push (b.schemas.node i).unnamed).Calm ok b.schemas.size :=
      calm.copy calm.here.2.unnamed rfl
    refine ⟨⟨⟨quiet.comments, ?_, ?_⟩, fun _ old => old.push _⟩, copied⟩
    · intro e listed
      rcases List.mem_cons.mp listed with rfl | old
      · exact copied
      · exact (quiet.stripped e old).push _
    · exact fun e old => (quiet.narrowed e old).push _

theorem quietly_narrow (quiet : b.Quiet ok) (calm : b.schemas.Calm ok i) {type : Json} :
    Quietly ok b (narrow i type) fun copy later => later.schemas.Calm ok copy := by
  refine ensures_narrow (fun _ => trivial) (fun e found _ _ => ?_) fun _ _ _ => ?_
  · exact ⟨quiet.stays, quiet.narrowed e (List.mem_of_find?_eq_some found)⟩
  · have copied : (b.schemas.push ((b.schemas.node i).ofType type)).Calm ok b.schemas.size :=
      calm.copy (calm.here.2.ofType type) rfl
    refine ⟨⟨⟨quiet.comments, ?_, ?_⟩, fun _ old => old.push _⟩, copied⟩
    · exact fun e old => (quiet.stripped e old).push _
    · intro e listed
      rcases List.mem_cons.mp listed with rfl | old
      · exact copied
      · exact (quiet.narrowed e old).push _

/-- A comment with a note added to it is joined of two texts. -/
theorem quietly_addNote (joins : Joins ok) (quiet : b.Quiet ok) {note : String} (text : ok note) :
    Quietly ok b (addNote t note) fun _ _ => True := by
  refine ⟨quiet.of_types rfl rfl rfl (TypeGraph.comments_set quiet.comments ?_), trivial⟩
  refine .inr ⟨_, rfl, ?_⟩
  split
  · rename_i given
    rcases quiet.comments t with absent | ⟨older, found, known⟩
    · rw [absent] at given
      cases given
    · rw [found]
      exact joins older note known text
  · exact text

end Build

/-- A builder that keeps the comments to the texts, given a schema that speaks in them. -/
def Subbuild.Quiet (ok : String → Prop) (sub : Subbuild) : Prop :=
  ∀ (b : Builder) (s : Subschema) (keyName : Option String), b.Quiet ok →
    (∀ j, s = .node j → b.schemas.Calm ok j) → Build.Quietly ok b (sub s keyName) fun _ _ => True

theorem Need.Calm.stays {need : Need} (calm : need.Calm ok b.schemas) (stays : b.Stays ok c) :
    need.Calm ok c.schemas := by
  cases need with
  | schema s keyName note => exact ⟨fun j here => stays.calm j (calm.1 j here), calm.2⟩
  | _ => trivial

namespace Build

variable {sub : Subbuild} {category : Category} {keyName : Option String}

theorem quietly_need (joins : Joins ok) (below : sub.Quiet ok) (quiet : b.Quiet ok)
    (whole : b.schemas.Calm ok i) {need : Need} (calm : need.Calm ok b.schemas) :
    Quietly ok b (need.build sub i) fun _ _ => True := by
  cases need with
  | any keyName => exact quietly_addType quiet (.inl rfl)
  | value v => exact quietly_addType quiet (.inl rfl)
  | schema s keyName note =>
    cases note with
    | none => exact below b s keyName quiet calm.1
    | some note =>
      apply (below b s keyName quiet calm.1).bind
      intro t c stays _
      apply (quietly_addNote joins stays.quiet (calm.2 note rfl)).bind
      intro _ d noted _
      exact quietly_pure noted.quiet trivial
  | copy type =>
    apply (quietly_narrow quiet whole).bind
    intro copy c stays copied
    refine below c _ none stays.quiet fun j here => ?_
    cases here
    exact copied

/-- The type made for a calm node is commented with its description. -/
theorem quietly_shape (joins : Joins ok) (below : sub.Quiet ok) (quiet : b.Quiet ok)
    (calm : b.schemas.Calm ok i) :
    Quietly ok b (shape sub i category keyName) fun n _ => IsComment ok n.comment := by
  rw [shape_eq_planned]
  apply (quietly_definitionKey quiet).bind
  intro key c stays _
  replace calm := stays.calm i calm
  apply ensures_schema
  apply ensures_get
  cases planned : (c.schemas.node i).plan i c.fileName category with
  | error e => exact trivial
  | ok plan =>
    apply (quietly_standaloneName stays.quiet).bind
    intro name d taken named
    cases made : plan name with
    | error e => exact trivial
    | ok form =>
      have each : ∀ need ∈ form.references, ∀ (_ : List Need) (_ : List TypeId) e,
          d.Stays ok e → Ensures e (need.build sub i) (fun _ later => d.Stays ok later)
            fun _ _ => True := by
        intro need listed _ _ e kept
        have stands := taken.trans kept
        have known : need.Calm ok c.schemas := Node.calm_of_mem calm named planned made listed
        exact (quietly_need joins below kept.quiet (stands.calm i calm) (known.stays stands)).imp
          (fun _ _ h => kept.trans h.1) fun _ _ h => h
      apply (ensures_traverse each taken.quiet.stays).bind
      rintro form e ⟨kept, _⟩
      exact ensures_pure ⟨kept, calm.here.2.description⟩

theorem quietly_inCategory (joins : Joins ok) (below : sub.Quiet ok) (quiet : b.Quiet ok)
    (calm : b.schemas.Calm ok i) :
    Quietly ok b (inCategory sub i category keyName) fun _ _ => True := by
  unfold inCategory
  apply ensures_built
  split
  · exact quietly_pure quiet trivial
  · apply (quietly_reserve quiet).bind
    intro t c reserved _
    apply (quietly_shape joins below reserved.quiet (reserved.calm i calm)).bind
    intro n d shaped comment
    apply (quietly_fill shaped.quiet comment).bind
    intro _ e filled _
    exact quietly_pure filled.quiet trivial

theorem quietly_parts (joins : Joins ok) (below : sub.Quiet ok) (quiet : b.Quiet ok)
    (calm : b.schemas.Calm ok i) (categories : List Category) :
    Quietly ok b (categories.mapM fun c => return Part.type (← inCategory sub i c keyName))
      fun _ _ => True := by
  have each : ∀ category ∈ categories, ∀ (_ : List Category) (_ : List Part) c, b.Stays ok c →
      Ensures c (do return Part.type (← inCategory sub i category keyName))
        (fun _ later => b.Stays ok later) fun _ _ => True := by
    intro category _ _ _ c kept
    apply Ensures.bind (quietly_inCategory joins below kept.quiet (kept.calm i calm))
    rintro t d ⟨stays, _⟩
    exact ensures_pure (kept.trans stays)
  exact (ensures_mapM each quiet.stays).imp (fun _ _ h => ⟨h.1, trivial⟩) fun _ _ h => h

theorem quietly_combination (joins : Joins ok) (below : sub.Quiet ok) (quiet : b.Quiet ok)
    (calm : b.schemas.Calm ok i) {categories : List Category} :
    Quietly ok b (combination sub i categories keyName) fun _ _ => True := by
  unfold combination
  apply ensures_built
  split
  · exact quietly_pure quiet trivial
  · apply (quietly_reserve quiet).bind
    intro t c reserved _
    apply (quietly_definitionKey reserved.quiet).bind
    intro key d searched _
    apply ensures_schema
    have here := searched.calm i (reserved.calm i calm)
    apply (quietly_standaloneName searched.quiet).bind
    intro name e taken _
    apply (quietly_fill taken.quiet here.here.2.description).bind
    intro _ f filled _
    apply (quietly_strip filled.quiet (filled.calm i (taken.calm i here))).bind
    intro copy g stripped copied
    apply (quietly_parts joins below stripped.quiet copied categories).bind
    intro parts h made _
    apply (quietly_setParams made.quiet).bind
    intro _ last set _
    exact quietly_pure set.quiet trivial

/-- Builds of any depth keep the comments to the texts. -/
theorem levels_quiet (joins : Joins ok) (fuel : Nat) : (levels fuel).Quiet ok := by
  induction fuel with
  | zero => exact fun b s keyName _ _ => ensures_throw trivial
  | succ fuel below =>
    intro b s keyName quiet calm
    cases s with
    | bool allowed => exact quietly_addType quiet (.inl rfl)
    | bare v => exact quietly_addType quiet (.inl rfl)
    | node i =>
      apply (quietly_noteRoot quiet).bind
      intro _ c noted _
      apply ensures_schema
      have here := noted.calm i (calm i rfl)
      split
      · exact quietly_inCategory joins below noted.quiet here
      · exact quietly_combination joins below noted.quiet here

end Build
end LinkedSchema
