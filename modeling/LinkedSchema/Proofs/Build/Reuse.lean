import LinkedSchema.Proofs.Build.Log
import LinkedSchema.Proofs.Build.Filling
import LinkedSchema.Proofs.Build.Refusals
/-! Calls of builders that share what was built: types that are remembered stay, and a call for a
node that was asked for before finds the type that was returned then, and does nothing else. -/
namespace LinkedSchema

variable {b c d : Builder} {i : NodeId} {category : Category} {t : TypeId}
  {keyName : Option String} {α β : Type}

theorem Subschema.Below.mono {s : Subschema} {size more : Nat} (below : s.Below size)
    (le : size ≤ more) : s.Below more := by
  cases s with
  | node i => exact Nat.lt_of_lt_of_le below le
  | bool allowed => trivial
  | bare v => trivial

theorem Graph.Closed.push {g : Graph} {n : Node} (closed : g.Closed)
    (children : ∀ s ∈ n.children, s.Below g.size) : (g.push n).Closed := by
  intro i inside s child
  rw [Graph.size_push] at inside ⊢
  rcases Nat.lt_succ_iff_lt_or_eq.mp inside with old | rfl
  · rw [Graph.node_push_of_lt old] at child
    exact (closed i old s child).mono (Nat.le_succ _)
  · rw [Graph.node_push_self] at child
    exact (children s child).mono (Nat.le_succ _)

namespace Builder

/-- What holds of the tables of a build, whoever filled them. -/
structure Tame (b : Builder) : Prop where
  closed : b.schemas.Closed
  keysOnce : (b.built.map (·.1)).Nodup
  typesOnce : (b.built.map (·.2)).Nodup
  types : ∀ e ∈ b.built, e.2 < b.types.size
  stripped : ∀ e ∈ b.stripped, e.2 < b.schemas.size
  narrowed : ∀ e ∈ b.narrowed, e.2 < b.schemas.size

/-- The later state has the nodes and the entries of the earlier one. -/
structure Retains (b later : Builder) : Prop where
  size : b.schemas.size ≤ later.schemas.size
  node : ∀ i < b.schemas.size, later.schemas.node i = b.schemas.node i
  built : b.built <:+ later.built

/-- The later state differs in names, in keys and in types, which may be more. -/
structure SameTables (b later : Builder) : Prop where
  schemas : later.schemas = b.schemas
  built : later.built = b.built
  stripped : later.stripped = b.stripped
  narrowed : later.narrowed = b.narrowed
  types : b.types.size ≤ later.types.size

theorem Retains.refl (b : Builder) : b.Retains b where
  size := Nat.le_refl _
  node _ _ := rfl
  built := List.suffix_refl _

theorem Retains.trans (first : b.Retains c) (next : c.Retains d) : b.Retains d where
  size := Nat.le_trans first.size next.size
  node i inside := (next.node i (Nat.lt_of_lt_of_le inside first.size)).trans (first.node i inside)
  built := first.built.trans next.built

namespace SameTables

theorem retains (same : b.SameTables c) : b.Retains c where
  size := Nat.le_of_eq (congrArg Graph.size same.schemas.symm)
  node i _ := by rw [same.schemas]
  built := same.built ▸ List.suffix_refl _

theorem tame (same : b.SameTables c) (tame : b.Tame) : c.Tame where
  closed := by
    rw [same.schemas]
    exact tame.closed
  keysOnce := by
    rw [same.built]
    exact tame.keysOnce
  typesOnce := by
    rw [same.built]
    exact tame.typesOnce
  types e listed := by
    rw [same.built] at listed
    exact Nat.lt_of_lt_of_le (tame.types e listed) same.types
  stripped e listed := by
    rw [same.stripped] at listed
    rw [same.schemas]
    exact tame.stripped e listed
  narrowed e listed := by
    rw [same.narrowed] at listed
    rw [same.schemas]
    exact tame.narrowed e listed

end SameTables

namespace Tame

/-- A node joins the table, and is listed as a copy in one of the lists. -/
theorem copied (tame : b.Tame) (inside : i < b.schemas.size) {n : Node}
    (children : n.children = (b.schemas.node i).children) {stripped : List (NodeId × NodeId)}
    {narrowed : List ((NodeId × Json) × NodeId)}
    (strips : ∀ e ∈ stripped, e ∈ b.stripped ∨ e.2 = b.schemas.size)
    (narrows : ∀ e ∈ narrowed, e ∈ b.narrowed ∨ e.2 = b.schemas.size) :
    Tame { b with schemas := b.schemas.push n, stripped, narrowed } where
  closed := tame.closed.push fun s child => tame.closed i inside s (children ▸ child)
  keysOnce := tame.keysOnce
  typesOnce := tame.typesOnce
  types := tame.types
  stripped e listed := by
    rw [Graph.size_push]
    rcases strips e listed with old | new
    · exact Nat.lt_succ_of_lt (tame.stripped e old)
    · exact new ▸ Nat.lt_succ_self _
  narrowed e listed := by
    rw [Graph.size_push]
    rcases narrows e listed with old | new
    · exact Nat.lt_succ_of_lt (tame.narrowed e old)
    · exact new ▸ Nat.lt_succ_self _

theorem reserved (tame : b.Tame) (absent : b.built.lookup (i, category) = none) :
    (b.reserved i category).Tame where
  closed := tame.closed
  keysOnce := by
    refine List.nodup_cons.mpr ⟨fun again => ?_, tame.keysOnce⟩
    obtain ⟨e, listed, same⟩ := List.mem_map.mp again
    exact ne_of_lookup absent e listed same
  typesOnce := by
    refine List.nodup_cons.mpr ⟨fun again => ?_, tame.typesOnce⟩
    obtain ⟨e, listed, same⟩ := List.mem_map.mp again
    exact Nat.ne_of_lt (tame.types e listed) same
  types e listed := by
    have size : (b.reserved i category).types.size = b.types.size + 1 := by simp [Builder.reserved]
    rw [size]
    rcases List.mem_cons.mp listed with rfl | listed
    · exact Nat.lt_succ_self _
    · exact Nat.lt_succ_of_lt (tame.types e listed)
  stripped := tame.stripped
  narrowed := tame.narrowed

end Tame

theorem retains_copied {n : Node} {stripped : List (NodeId × NodeId)}
    {narrowed : List ((NodeId × Json) × NodeId)} :
    b.Retains { b with schemas := b.schemas.push n, stripped, narrowed } where
  size := by simp
  node i inside := Graph.node_push_of_lt inside n
  built := List.suffix_refl _

theorem retains_reserved : b.Retains (b.reserved i category) where
  size := Nat.le_refl _
  node _ _ := rfl
  built := List.suffix_cons _ _

end Builder

namespace Event

/-- The event agrees with what is remembered. -/
def Stands (b : Builder) : Event → Prop
  | .remembered i category t => ((i, category), t) ∈ b.built
  | .returned i t => i < b.schemas.size ∧ ((i, (b.schemas.node i).slot), t) ∈ b.built

theorem Stands.later {e : Event} (stands : e.Stands b) (retains : b.Retains c) : e.Stands c := by
  cases e with
  | remembered i category t => exact retains.built.subset stands
  | returned i t =>
    obtain ⟨inside, entry⟩ := stands
    refine ⟨Nat.lt_of_lt_of_le inside retains.size, ?_⟩
    rw [retains.node i inside]
    exact retains.built.subset entry

end Event

/-- The log agrees with what is remembered, and has an event for each entry. -/
structure Builder.Bears (b : Builder) (log : List Event) : Prop where
  stand : ∀ e ∈ log, e.Stands b
  logged : ∀ e ∈ b.built, .remembered e.1.1 e.1.2 e.2 ∈ log

namespace Logged

/-- From this state, the step retains what is there and goes on with the log as it should. -/
def Keeps (b : Builder) (x : Logged α) (post : α → Builder → Prop) : Prop :=
  ∀ log, b.Tame → b.Bears log → Build.Ensures b (x.run log)
    (fun r later => b.Retains later ∧ later.Tame ∧ later.Bears r.2 ∧ post r.1 later)
    fun _ _ => True

section

variable {post weaker : α → Builder → Prop}

theorem keeps_pure {a : α} (holds : post a b) : Keeps b (pure a) post := by
  intro log tame bears
  exact Build.ensures_pure ⟨.refl b, tame, bears, holds⟩

theorem Keeps.imp {x : Logged α} (keeps : Keeps b x post)
    (weaken : ∀ a later, post a later → weaker a later) : Keeps b x weaker := by
  intro log tame bears
  refine (keeps log tame bears).imp ?_ fun _ _ h => h
  rintro r later ⟨retains, tame, bears, holds⟩
  exact ⟨retains, tame, bears, weaken _ _ holds⟩

theorem Keeps.bind {x : Logged α} {f : α → Logged β} {last : β → Builder → Prop}
    (first : Keeps b x post)
    (rest : ∀ a later, b.Retains later → post a later → Keeps later (f a) last) :
    Keeps b (x >>= f) last := by
  intro log tame bears
  rw [StateT.run_bind]
  apply (first log tame bears).bind
  rintro ⟨a, log⟩ later ⟨retains, tame, bears, holds⟩
  refine (rest a later retains holds log tame bears).imp ?_ fun _ _ h => h
  rintro r final ⟨after, tame, bears, holds⟩
  exact ⟨retains.trans after, tame, bears, holds⟩

theorem keeps_of_tame {x : Logged α} (keeps : b.Tame → Keeps b x post) : Keeps b x post :=
  fun log tame bears => keeps tame log tame bears

/-- A step that adds no entry and logs nothing. -/
theorem keeps_lift {y : Build α} (step : b.Tame → Build.Ensures b y
      (fun a later => b.Retains later ∧ later.built = b.built ∧ later.Tame ∧ post a later)
      fun _ _ => True) : Keeps b (liftM y : Logged α) post := by
  intro log tame bears
  rw [StateT.run_monadLift]
  apply (step tame).bind
  rintro a later ⟨retains, built, tame, holds⟩
  refine Build.ensures_pure ⟨retains, tame, ⟨?_, ?_⟩, holds⟩
  · exact fun e listed => (bears.stand e listed).later retains
  · rw [built]
    exact bears.logged

theorem keeps_same {y : Build α}
    (step : Build.Ensures b y (fun a later => b.SameTables later ∧ post a later)
      fun _ _ => True) : Keeps b (liftM y : Logged α) post := by
  apply keeps_lift
  intro tame
  refine step.imp ?_ fun _ _ h => h
  rintro a later ⟨same, holds⟩
  exact ⟨same.retains, same.built, same.tame tame, holds⟩

theorem keeps_note {e : Event} {f : Unit → Logged β} {last : β → Builder → Prop}
    (stands : e.Stands b) (rest : Keeps b (f ()) last) : Keeps b (note e >>= f) last := by
  intro log tame bears
  refine rest (e :: log) tame ⟨List.forall_mem_cons.mpr ⟨stands, bears.stand⟩, fun d listed => ?_⟩
  exact List.mem_cons_of_mem _ (bears.logged d listed)

/-- A type is reserved, and logged as remembered. -/
theorem keeps_reserve {f : TypeId → Logged β} {last : β → Builder → Prop}
    (absent : b.built.lookup (i, category) = none)
    (rest : ∀ t later, b.Retains later → ((i, category), t) ∈ later.built →
      Keeps later (f t) last) :
    Keeps b (do
      let t ← Build.reserve i category
      note (.remembered i category t)
      f t) last := by
  intro log tame bears
  have retains : b.Retains (b.reserved i category) := Builder.retains_reserved
  have entry : ((i, category), b.types.size) ∈ (b.reserved i category).built := List.mem_cons_self
  have again : (b.reserved i category).Bears (.remembered i category b.types.size :: log) := by
    constructor
    · refine List.forall_mem_cons.mpr ⟨entry, fun e listed => ?_⟩
      exact (bears.stand e listed).later retains
    · intro e listed
      rcases List.mem_cons.mp listed with rfl | old
      · exact List.mem_cons_self
      · exact List.mem_cons_of_mem _ (bears.logged e old)
  have after := rest b.types.size _ retains entry _ (tame.reserved absent) again
  have done : Build.Ensures b (Build.reserve i category >>= fun t =>
      (f t).run (.remembered i category t :: log))
      (fun r later => b.Retains later ∧ later.Tame ∧ later.Bears r.2 ∧ last r.1 later)
      fun _ _ => True := by
    apply Build.ensures_reserve
    refine after.imp ?_ fun _ _ h => h
    rintro r final ⟨after, tame, bears, holds⟩
    exact ⟨retains.trans after, tame, bears, holds⟩
  exact done

end

/-- Whatever a computation of several steps does from the states that retain this one, it keeps what
its steps keep. -/
theorem lockstep_keeps (b : Builder) : Lockstep (m := Logged) (k := Logged)
    fun _ x _ => ∀ later, b.Retains later → Keeps later x fun _ _ => True where
  pure _ _ _ := keeps_pure trivial
  bind first rest later retains :=
    (first later retains).bind fun a _ after _ => rest a _ (retains.trans after)

theorem keeps_mapM {f : α → Logged β} {xs : List α}
    (each : ∀ a ∈ xs, ∀ later, b.Retains later → Keeps later (f a) fun _ _ => True) :
    Keeps b (xs.mapM f) fun _ _ => True :=
  (lockstep_keeps b).mapM (h := f) each b (.refl b)

theorem keeps_traverse {f : α → Logged β} {x : Form α}
    (each : ∀ a ∈ x.references, ∀ later, b.Retains later → Keeps later (f a) fun _ _ => True) :
    Keeps b (x.traverse f) fun _ _ => True :=
  (lockstep_keeps b).traverse (h := f) each b (.refl b)

theorem keeps_addType {n : TypeNode} : Keeps b (Build.addType n : Logged TypeId) fun _ _ => True :=
  keeps_same (Build.ensures_of_ok rfl ⟨⟨rfl, rfl, rfl, rfl, by simp⟩, trivial⟩)

theorem keeps_addNote {text : String} :
    Keeps b (Build.addNote t text : Logged Unit) fun _ _ => True :=
  keeps_same (Build.ensures_of_ok rfl ⟨⟨rfl, rfl, rfl, rfl, by simp⟩, trivial⟩)

theorem keeps_fill {n : TypeNode} :
    Keeps b (Build.fill t n : Logged Unit) fun _ later => later.built = b.built :=
  keeps_same (Build.ensures_of_ok rfl ⟨⟨rfl, rfl, rfl, rfl, by simp⟩, rfl⟩)

theorem keeps_setParams {params : Params} :
    Keeps b (Build.setParams t params : Logged Unit) fun _ later => later.built = b.built :=
  keeps_same (Build.ensures_of_ok rfl ⟨⟨rfl, rfl, rfl, rfl, by simp⟩, rfl⟩)

variable (i) in
theorem keeps_schema :
    Keeps b (Build.schema i : Logged Node) fun n later => n = b.schemas.node i ∧ later = b :=
  keeps_lift fun tame => Build.ensures_of_ok rfl ⟨.refl b, rfl, tame, rfl, rfl⟩

/-- A builder of the types of schemas that keeps what it should, from whatever state. -/
def Keeping (sub : Subschema → Option String → Logged TypeId) : Prop :=
  ∀ b s keyName, s.Below b.schemas.size → Keeps b (sub s keyName) fun _ _ => True

theorem keeps_narrow {type : Json} (inside : i < b.schemas.size) :
    Keeps b (Build.narrow i type : Logged NodeId) fun copy later => copy < later.schemas.size := by
  apply keeps_lift
  intro tame
  refine Build.ensures_narrow (fun _ => trivial) ?_ ?_
  · intro e found _ _
    exact ⟨.refl b, rfl, tame, tame.narrowed e (List.mem_of_find?_eq_some found)⟩
  · intro _ _ _
    refine ⟨Builder.retains_copied, rfl, ?_, by simp⟩
    apply tame.copied inside (Node.children_ofType _ type) fun e => .inl
    exact fun e listed => (List.mem_cons.mp listed).symm.imp_right (congrArg Prod.snd)

theorem keeps_strip (inside : i < b.schemas.size) :
    Keeps b (Build.strip i : Logged NodeId) fun copy later => copy < later.schemas.size := by
  apply keeps_lift
  intro tame
  apply Build.ensures_strip
  · intro copy found
    exact ⟨.refl b, rfl, tame, tame.stripped _ (mem_of_lookup found)⟩
  · intro _
    refine ⟨Builder.retains_copied, rfl, ?_, by simp⟩
    refine tame.copied inside (Node.children_unnamed _) ?_ fun e => .inl
    exact fun e listed => (List.mem_cons.mp listed).symm.imp_right (congrArg Prod.snd)

theorem keeps_definitionKey :
    Keeps b (Build.definitionKey i : Logged (Option String)) fun _ _ => True :=
  keeps_same (Build.ensures_definitionKey fun _ _ => ⟨⟨rfl, rfl, rfl, rfl, Nat.le_refl _⟩, trivial⟩)

theorem keeps_standaloneName {n : Node} {key : Option String} :
    Keeps b (Build.standaloneName n key : Logged (Option String)) fun _ _ => True :=
  keeps_same (Build.ensures_standaloneName
    (fun _ => ⟨⟨rfl, rfl, rfl, rfl, Nat.le_refl _⟩, trivial⟩)
    (fun _ _ => ⟨⟨rfl, rfl, rfl, rfl, Nat.le_refl _⟩, trivial⟩) fun _ => trivial)

theorem keeps_prepare : Keeps b (Build.prepare i category keyName : Logged _)
    fun r _ => ∀ x ∈ r.2.2.references, (b.schemas.node i).Offers (x.subject (b.schemas.node i)) := by
  apply keeps_same
  refine Build.ensures_prepare rfl ?_ fun _ _ _ _ => trivial
  intro plan name form usedNames definitions _ planned made
  refine ⟨⟨rfl, rfl, rfl, rfl, Nat.le_refl _⟩, fun x listed => ?_⟩
  exact Node.offers_of_need (Node.formIn_of_plan planned made) listed

section

variable {sub : Subschema → Option String → Logged TypeId} (subs : Keeping sub)
include subs

theorem keeps_need {x : Need} (inside : i < b.schemas.size)
    (offered : (b.schemas.node i).Offers (x.subject (b.schemas.node i))) :
    Keeps b (need sub i x) fun _ _ => True := by
  apply keeps_of_tame
  intro tame
  cases x with
  | any keyName => exact keeps_addType
  | value v => exact keeps_addType
  | copy type =>
    apply (keeps_narrow inside).bind
    exact fun copy later _ copied => subs later (.node copy) none copied
  | schema s keyName text =>
    have below : s.Below b.schemas.size := offered.below (tame.closed i inside)
    cases text with
    | none => exact subs b s keyName below
    | some text =>
      apply (subs b s keyName below).bind
      intro t c _ _
      apply keeps_addNote.bind
      exact fun _ d _ _ => keeps_pure trivial

theorem keeps_inCategory (inside : i < b.schemas.size) :
    Keeps b (inCategory sub i category keyName)
      fun t later => ((i, category), t) ∈ later.built := by
  have looked : Keeps b (Build.built? i category : Logged (Option TypeId))
      fun found later => later = b ∧ found = b.built.lookup (i, category) :=
    keeps_lift fun tame => Build.ensures_of_ok rfl ⟨.refl b, rfl, tame, rfl, rfl⟩
  apply looked.bind
  rintro found _ _ ⟨rfl, rfl⟩
  split
  · rename_i t found
    have entry := mem_of_lookup found
    exact keeps_note (e := .remembered i category t) entry (keeps_pure entry)
  · rename_i absent
    apply keeps_reserve absent
    intro t c reserved entry
    apply keeps_prepare.bind
    rintro ⟨n, name, form⟩ d prepared offered
    have there : i < c.schemas.size := Nat.lt_of_lt_of_le inside reserved.size
    have needs : ∀ x ∈ form.references, ∀ later, d.Retains later →
        Keeps later (need sub i x) fun _ _ => True := by
      intro x listed later retains
      have all := prepared.trans retains
      apply keeps_need subs (Nat.lt_of_lt_of_le there all.size)
      rw [all.node i there]
      exact offered x listed
    apply (keeps_traverse needs).bind
    intro form e after _
    have here : ((i, category), t) ∈ e.built := (prepared.trans after).built.subset entry
    apply keeps_fill.bind
    exact fun _ _ _ same => keeps_pure (same ▸ here)

theorem keeps_combination {categories : List Category} (inside : i < b.schemas.size) :
    Keeps b (combination sub i categories keyName)
      fun t later => ((i, Category.allOf), t) ∈ later.built := by
  have looked : Keeps b (Build.built? i .allOf : Logged (Option TypeId))
      fun found later => later = b ∧ found = b.built.lookup (i, .allOf) :=
    keeps_lift fun tame => Build.ensures_of_ok rfl ⟨.refl b, rfl, tame, rfl, rfl⟩
  apply looked.bind
  rintro found _ _ ⟨rfl, rfl⟩
  split
  · rename_i t found
    have entry := mem_of_lookup found
    exact keeps_note (e := .remembered i .allOf t) entry (keeps_pure entry)
  · rename_i absent
    apply keeps_reserve absent
    intro t b₁ h₁ entry
    apply keeps_definitionKey.bind
    intro key b₂ h₂ _
    apply (keeps_schema i).bind
    intro n b₃ h₃ _
    apply keeps_standaloneName.bind
    intro name b₄ h₄ _
    apply keeps_fill.bind
    intro _ b₅ h₅ _
    have filled := (((h₁.trans h₂).trans h₃).trans h₄).trans h₅
    apply (keeps_strip (Nat.lt_of_lt_of_le inside filled.size)).bind
    intro copy b₆ h₆ copied
    have members : ∀ c ∈ categories, ∀ later, b₆.Retains later →
        Keeps later (do return Part.type (← inCategory sub copy c keyName)) fun _ _ => True := by
      intro c _ later retains
      apply (keeps_inCategory subs (Nat.lt_of_lt_of_le copied retains.size)).bind
      exact fun _ _ _ _ => keeps_pure trivial
    apply (keeps_mapM members).bind
    intro parts b₇ h₇ _
    have all := ((((h₂.trans h₃).trans h₄).trans h₅).trans h₆).trans h₇
    have here : ((i, .allOf), t) ∈ b₇.built := all.built.subset entry
    apply keeps_setParams.bind
    exact fun _ _ _ same => keeps_pure (same ▸ here)

theorem keeps_ofNode (inside : i < b.schemas.size) :
    Keeps b (ofNode sub i keyName)
      fun t later => ((i, (b.schemas.node i).slot), t) ∈ later.built := by
  apply (keeps_schema i).bind
  rintro n _ _ ⟨rfl, rfl⟩
  split
  · rename_i category only
    refine (keeps_inCategory subs inside).imp fun t later entry => ?_
    simpa only [Node.slot, only] using entry
  · rename_i several
    refine (keeps_combination subs inside).imp fun t later entry => ?_
    rwa [Node.slot_of_several several]

theorem keeping_level : Keeping (level sub) := by
  intro b s keyName below
  cases s with
  | bool allowed => exact keeps_addType
  | bare v => exact keeps_addType
  | node i =>
    have noted : Keeps b (Build.noteRoot i : Logged Unit) fun _ _ => True :=
      keeps_same (Build.ensures_of_ok rfl ⟨⟨rfl, rfl, rfl, rfl, Nat.le_refl _⟩, trivial⟩)
    apply noted.bind
    intro _ c retains _
    have inside : i < c.schemas.size := Nat.lt_of_lt_of_le below retains.size
    apply (keeps_ofNode subs inside).bind
    intro t d after entry
    refine keeps_note (e := .returned i t) ⟨?_, ?_⟩ (keeps_pure trivial)
    · exact Nat.lt_of_lt_of_le inside after.size
    · rwa [after.node i inside]

end

theorem keeping_levels (fuel : Nat) : Keeping (levels fuel) := by
  induction fuel with
  | zero => exact fun _ _ _ _ _ _ _ => trivial
  | succ fuel ih => exact keeping_level ih

end Logged
end LinkedSchema
