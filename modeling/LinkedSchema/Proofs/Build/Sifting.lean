import LinkedSchema.Proofs.Build.Leftovers
/-! Every level of a build leaves behind what a step may leave behind, and fails only where no type
can be made. -/
namespace LinkedSchema

variable {α : Type} {g base : Graph} {old : List (NodeId × NodeId)} {b c : Builder} {n : Node}
  {i : NodeId} {category : Category} {x y : Subject} {sub : Subbuild} {keyName : Option String}
  {s : Subschema}

namespace Graph.Extends

variable (extension : base.Extends g old) (sound : b.Sound base)
include extension sound

theorem below (inside : i < b.schemas.size) (child : s ∈ (b.schemas.node i).children) :
    s.Below g.size :=
  sound.copies.inherits (P := fun n => ∀ s ∈ n.children, s.Below g.size) extension.children
    (fun _ h => h) (fun _ _ _ h => h) i inside s child

theorem names_below (inside : i < b.schemas.size) : (b.schemas.node i).type.NamesTypes :=
  sound.copies.inherits (P := fun n => n.type.NamesTypes) extension.names (fun _ h => h)
    (fun _ _ listed names => Node.namesTypes_ofType names listed) i inside

theorem node_eq (inside : i < g.size) : b.schemas.node i = g.node i :=
  (sound.copies.kept i (Nat.lt_of_lt_of_le inside extension.size)).trans (extension.kept i inside)

theorem admits (below : s.Below g.size) : (b.recalling old).Admits s := by
  cases s with
  | bool allowed => trivial
  | bare v => trivial
  | node i =>
    have inside : i < base.size := Nat.lt_of_lt_of_le below extension.size
    refine ⟨Nat.lt_of_lt_of_le inside sound.copies.size_le, ?_⟩
    rw [Builder.hidden_recalling]
    rintro (hidden | ⟨e, listed, rfl⟩)
    · exact sound.copies.shown_of_lt inside hidden
    · exact Nat.not_le_of_lt below (extension.old e listed).1

omit sound in
theorem shown_copy (new : base.size ≤ i) (shown : ¬ b.Hidden i) : ¬ (b.recalling old).Hidden i := by
  rw [Builder.hidden_recalling]
  rintro (hidden | ⟨e, listed, rfl⟩)
  · exact shown hidden
  · exact Nat.not_lt_of_le new (extension.old e listed).2

end Graph.Extends

namespace Builder

/-- What is left when a step fails, unless for want of fuel: no type can be made of the subject. -/
def Breaks (g base : Graph) (old : List (NodeId × NodeId)) (b : Builder) (x : Subject) (e : Fault)
    (later : Builder) : Prop :=
  e ≠ .outOfFuel → b.Follows g base old True later ∧ g.Refuses x

/-- What the type of a schema is made of. -/
def subjectOf (b : Builder) : Subschema → Subject
  | .node i => .whole (b.schemas.node i)
  | s => .schema s

theorem Breaks.after {e : Fault} {later : Builder} (breaks : c.Breaks g base old y e later)
    (before : b.Follows g base old False c) (refused : g.Refuses y → g.Refuses x) :
    b.Breaks g base old x e later := by
  intro fueled
  obtain ⟨follows, refuses⟩ := breaks fueled
  exact ⟨before.trans follows, refused refuses⟩

theorem breaks_here {e : Fault} (sound : b.Sound base) (refused : g.Refuses x) :
    b.Breaks g base old x e b := fun _ => ⟨.refl sound, refused⟩

theorem Filling.breaks {key : NodeId × Category} {e : Fault} {later : Builder}
    (filling : b.Filling g base old key c) (breaks : c.Breaks g base old y e later)
    (own : g.Refuses y → ((c.recalling old).Hidden key.1 ∧
        g.Refuses (.part (c.schemas.node key.1) key.2)) ∨
      (¬ (c.recalling old).Hidden key.1 ∧ g.Refuses (.whole (c.schemas.node key.1))))
    (refused : g.Refuses y → g.Refuses x) : b.Breaks g base old x e later := by
  intro fueled
  obtain ⟨follows, refuses⟩ := breaks fueled
  exact ⟨filling.fails follows (own refuses), refused refuses⟩

/-- A step that fails while the type of a node of several categories is to be filled. -/
theorem Filling.breaks_whole {k : Category} {e : Fault} {later : Builder}
    (filling : b.Filling g base old (i, k) c) (inside : i < b.schemas.size)
    (shown : ¬ (b.recalling old).Hidden i) (breaks : c.Breaks g base old y e later)
    (refused : g.Refuses y → g.Refuses (.whole (b.schemas.node i))) :
    b.Breaks g base old (.whole (b.schemas.node i)) e later := by
  refine filling.breaks breaks (fun refuses => .inr ⟨?_, ?_⟩) refused
  · rwa [filling.grows.recalling.hidden_iff inside]
  · rw [filling.grows.node i inside]
    exact refused refuses

end Builder

/-- A builder that fails only where no type can be made, and then leaves behind what it may. -/
def Subbuild.Sifts (g base : Graph) (old : List (NodeId × NodeId)) (sub : Subbuild) : Prop :=
  ∀ (b : Builder) (s : Subschema) (keyName : Option String), b.Sound base →
    (b.recalling old).Admits s → Build.Ensures b (sub s keyName)
      (fun t later => b.Follows g base old False later ∧ (later.recalling old).Shows t s)
      (b.Breaks g base old (b.subjectOf s))

/-- The types that stand for what the needs of a node are translated to, one by one. -/
def Builder.Meeting (g base : Graph) (old : List (NodeId × NodeId)) (b : Builder) (n : Node)
    (needs : List Need) (types : List TypeId) (later : Builder) : Prop :=
  b.Follows g base old False later ∧
    List.Forall₂ (fun t need => (later.recalling old).Stands g t (Need.subject n need)) types needs

namespace Build

/-- What else is known of the outcomes of a step that meets a contract. -/
theorem Meets.ensures {step : Build α} {post known : α → Builder → Prop}
    {bad : Fault → Builder → Prop} (meets : Meets base 0 b step post)
    (outcomes : Ensures b step known bad) :
    Ensures b step (fun a later => b.Continues base later ∧ post a later ∧ known a later) bad := by
  cases run : step b with
  | ok a later =>
    obtain ⟨continues, holds⟩ := meets.ok run
    exact ensures_of_ok run ⟨continues, holds, outcomes.ok run⟩
  | error e later => exact ensures_of_error run (outcomes.error run)

variable (g old) in
theorem follows_definitionKey {bad : Fault → Builder → Prop} (sound : b.Sound base) :
    Ensures b (definitionKey i) (fun _ later => b.Follows g base old False later) bad := by
  have quiet : Ensures b (definitionKey i) (fun _ later => later.built = b.built) bad :=
    ensures_definitionKey fun _ _ => rfl
  refine ((meets_definitionKey sound).ensures quiet).mono ?_
  rintro key later ⟨continues, _, built⟩
  exact .of_continues continues built

variable (g old) in
theorem follows_standaloneName {key : Option String} {bad : Fault → Builder → Prop}
    (sound : b.Sound base) (fault : ¬ n.Nameable → bad (.misused .name) b) :
    Ensures b (standaloneName n key)
      (fun _ later => b.Follows g base old False later ∧ n.Nameable) bad := by
  have quiet : Ensures b (standaloneName n key)
      (fun _ later => later.built = b.built ∧ n.Nameable) bad :=
    ensures_standaloneName (fun nameable => ⟨rfl, nameable⟩) (fun nameable _ => ⟨rfl, nameable⟩)
      fault
  refine ((meets_standaloneName sound).ensures quiet).mono ?_
  rintro name later ⟨continues, _, built, nameable⟩
  exact ⟨.of_continues continues built, nameable⟩

section

variable (sifts : sub.Sifts g base old) (extension : base.Extends g old) (sound : b.Sound base)

omit sifts extension in
include sound in
theorem ensures_leaf {s : Subschema} {m : TypeNode} (leaf : s.leaf = some m.form)
    (below : s.Below g.size) :
    Ensures b (addType m) (fun t later => b.Follows g base old False later ∧
      (later.recalling old).Stands g t (.schema s)) (b.Breaks g base old x) := by
  have made : Ensures b (addType m) (fun _ later => later.built = b.built)
    (b.Breaks g base old x) := ensures_of_ok rfl rfl
  refine ((meets_addType sound).ensures made).mono ?_
  rintro t later ⟨continues, ⟨filled, form⟩, built⟩
  refine ⟨.of_continues continues built, below, ?_⟩
  cases s with
  | node j => cases leaf
  | bool allowed => exact ⟨filled, leaf.trans (congrArg some form.symm)⟩
  | bare v => exact ⟨filled, leaf.trans (congrArg some form.symm)⟩

include sifts extension sound

variable (keyName) in
theorem ensures_sub (below : s.Below g.size) :
    Ensures b (sub s keyName) (fun t later => b.Follows g base old False later ∧
      (later.recalling old).Stands g t (.schema s)) (b.Breaks g base old (.schema s)) := by
  refine (sifts b s keyName sound (extension.admits sound below)).imp ?_ ?_
  · rintro t later ⟨follows, shows⟩
    exact ⟨follows, below, shows⟩
  · intro e later breaks
    refine breaks.after (.refl sound) fun refused => ?_
    cases s with
    | node j =>
      have same : b.schemas.node j = g.node j := extension.node_eq sound below
      rw [Builder.subjectOf, same] at refused
      exact refused.of_same rfl Iff.rfl
    | bool allowed => exact refused
    | bare v => exact refused

theorem ensures_noted (below : s.Below g.size) {note : String} :
    Ensures b (Need.build sub i (.schema s keyName (some note)))
      (fun t later => b.Follows g base old False later ∧
        (later.recalling old).Stands g t (.schema s)) (b.Breaks g base old (.schema s)) := by
  apply (ensures_sub keyName sifts extension sound below).bind
  rintro t c ⟨follows, stands⟩
  have noted : Ensures c (addNote t note) (fun _ later => later.built = c.built)
    (b.Breaks g base old (.schema s)) := ensures_of_ok rfl rfl
  apply ((meets_addNote follows.sound).ensures noted).bind
  rintro _ d ⟨continues, _, built⟩
  have next : c.Follows g base old False d := .of_continues continues built
  exact ensures_pure ⟨follows.trans next, next.stands stands⟩

theorem ensures_copy {type : Json} (inside : i < b.schemas.size)
    (listed : type ∈ (b.schemas.node i).typeList) :
    Ensures b (Need.build sub i (.copy type))
      (fun t later => b.Follows g base old False later ∧
        (later.recalling old).Stands g t (.whole ((b.schemas.node i).ofType type)))
      (b.Breaks g base old (.whole ((b.schemas.node i).ofType type))) := by
  have text := Node.isText_of_mem_typeList (extension.names_below sound inside) listed
  have narrowed : Ensures b (narrow i type)
      (fun copy later => later.built = b.built ∧ base.size ≤ copy)
      (b.Breaks g base old (.whole ((b.schemas.node i).ofType type))) := by
    refine ensures_narrow ?_ ?_ ?_
    · intro container
      cases type <;> simp [Json.isText, Json.isArr, Json.isObj] at text container
    · intro e found _ _
      exact ⟨rfl, (sound.copies.narrowed e (List.mem_of_find?_eq_some found)).2.2.1⟩
    · intro _ _ _
      exact ⟨rfl, sound.copies.size_le⟩
  apply ((meets_narrow sound inside listed).ensures narrowed).bind
  rintro copy c ⟨continues, ⟨copied, shown, similar⟩, built, new⟩
  have follows : b.Follows g base old False c := .of_continues continues built
  rw [follows.grows.node i inside] at similar
  apply (sifts c (.node copy) none follows.sound ⟨copied, extension.shown_copy new shown⟩).imp
  · rintro t d ⟨next, shows⟩
    refine ⟨follows.trans next, copy, shows, ?_⟩
    rwa [next.grows.recalled copied]
  · intro e d breaks
    exact breaks.after follows fun refused => refused.whole_similar similar

/-- What a need is translated to, is built. -/
theorem ensures_need (inside : i < b.schemas.size) {need : Need}
    (offered : (b.schemas.node i).Offers (need.subject (b.schemas.node i))) :
    Ensures b (need.build sub i)
      (fun t later => b.Follows g base old False later ∧
        (later.recalling old).Stands g t (need.subject (b.schemas.node i)))
      (b.Breaks g base old (need.subject (b.schemas.node i))) := by
  cases need with
  | any keyName => exact ensures_leaf (s := .bool true) sound rfl trivial
  | value v => exact ensures_leaf (s := .bare v) sound rfl trivial
  | copy type => exact ensures_copy sifts extension sound inside offered
  | schema s keyName note =>
    have below : s.Below g.size := offered.below fun _ child => extension.below sound inside child
    cases note with
    | none => exact ensures_sub keyName sifts extension sound below
    | some note => exact ensures_noted sifts extension sound below

/-- What a plan is made of is built need by need. -/
theorem ensures_plan (inside : i < b.schemas.size) (node : b.schemas.node i = n)
    {needs : Form Need} (made : n.formIn category = some (needs.map (Need.subject n))) :
    Ensures b (needs.traverse (Need.build sub i))
      (fun form later => b.Follows g base old False later ∧
        form.Matches Eq ((later.recalling old).Stands g) (needs.map (Need.subject n)))
      (b.Breaks g base old (.part n category)) := by
  have each : ∀ need ∈ needs.references, ∀ done types c, b.Meeting g base old n done types c →
      Ensures c (need.build sub i)
        (fun t d => b.Meeting g base old n (done ++ [need]) (types ++ [t]) d)
        (b.Breaks g base old (.part n category)) := by
    rintro need listed done types c ⟨follows, stand⟩
    have kept : c.schemas.node i = n := (follows.grows.node i inside).trans node
    have refers : need.subject n ∈ (needs.map (Need.subject n)).references := by
      rw [Form.references_map]
      exact List.mem_map_of_mem listed
    have offered := Node.offers_of_mem made refers
    have built := ensures_need sifts extension follows.sound
      (Nat.lt_of_lt_of_le inside follows.grows.schemas) (kept ▸ offered)
    rw [kept] at built
    refine built.imp ?_ fun e d breaks => breaks.after follows (.leads made refers)
    rintro t d ⟨next, stands⟩
    have before := stand.imp fun _ _ => next.stands
    exact ⟨follows.trans next, List.rel_append before (.cons stands .nil)⟩
  have begun : b.Meeting g base old n [] [] b := ⟨.refl sound, .nil⟩
  refine (ensures_traverse each begun).mono ?_
  rintro form later ⟨⟨follows, stand⟩, alike⟩
  exact ⟨follows, (alike.of_references stand).map_right⟩

variable (category keyName) in
/-- The type made for a node in a category has the form that belongs there. -/
theorem ensures_shape (inside : i < b.schemas.size) :
    Ensures b (shape sub i category keyName)
      (fun m later => b.Follows g base old False later ∧ (b.schemas.node i).Nameable ∧
        (later.recalling old).Fits g m ((b.schemas.node i).formIn category))
      (b.Breaks g base old (.part (b.schemas.node i) category)) := by
  rw [shape_eq_planned]
  unfold planned
  apply (follows_definitionKey g old sound).bind
  intro key c first
  have same : c.schemas.node i = b.schemas.node i := first.grows.node i inside
  apply ensures_schema
  apply ensures_get
  rw [same]
  generalize node : b.schemas.node i = n
  have broken : ∀ later, b.Follows g base old False later → ∀ e, g.Refuses (.part n category) →
      b.Breaks g base old (.part n category) e later := fun later before _ refused =>
    (Builder.breaks_here before.sound refused).after before id
  have found : Ensures c (MonadExcept.ofExcept (n.plan i c.fileName category))
      (fun plan later => c = later ∧ n.plan i c.fileName category = .ok plan)
      (b.Breaks g base old (.part n category)) :=
    ensures_ofExcept (fun _ found => ⟨rfl, found⟩)
      fun e fault => broken c first e (.formless (Node.formIn_of_planError fault))
  apply found.bind
  rintro plan _ ⟨rfl, found⟩
  apply (follows_standaloneName g old first.sound
    fun nameless => broken c first _ (.nameless nameless)).bind
  rintro name d ⟨next, nameable⟩
  have second : b.Follows g base old False d := first.trans next
  have made : Ensures d (MonadExcept.ofExcept (plan name))
      (fun needs later => d = later ∧ plan name = .ok needs)
      (b.Breaks g base old (.part n category)) :=
    ensures_ofExcept (fun _ made => ⟨rfl, made⟩)
      fun e fault => broken d second e (.formless (Node.formIn_of_lateError found fault))
  apply made.bind
  rintro needs _ ⟨rfl, made⟩
  have form := Node.formIn_of_plan found made
  have kept : d.schemas.node i = n := (second.grows.node i inside).trans node
  have parts := ensures_plan sifts extension second.sound
    (Nat.lt_of_lt_of_le inside second.grows.schemas) kept form
  apply (parts.imp (fun _ _ h => h) fun e later breaks => breaks.after second id).bind
  rintro own later ⟨follows, agree⟩
  exact ensures_pure ⟨second.trans follows, nameable, _, form, agree⟩

variable (category keyName) in
theorem ensures_inCategory (inside : i < b.schemas.size)
    (proper : Proper (b.recalling old) i category) :
    Ensures b (inCategory sub i category keyName)
      (fun t later => b.Follows g base old False later ∧ ((i, category), t) ∈ later.built)
      (b.Breaks g base old (.part (b.schemas.node i) category)) := by
  unfold inCategory
  apply ensures_built
  split
  · rename_i t found
    exact ensures_pure ⟨.refl sound, mem_of_lookup found⟩
  · rename_i absent
    apply ensures_reserve
    have begun : b.Filling g base old (i, category) (b.reserved i category) :=
      .reserved sound inside absent
    have shaped := ensures_shape category keyName sifts extension begun.sound inside
    apply (shaped.imp (fun _ _ h => h) fun e later breaks => begun.breaks breaks ?_ id).bind
    · rintro m c ⟨follows, nameable, fits⟩
      have filling := begun.follows follows
      apply ensures_fill
      refine ensures_pure ⟨filling.completes ⟨?_, ?_⟩, filling.entry⟩
      · rwa [(filling.grows.trans (Builder.grows_filled m)).recalled inside]
      · refine complete_of_fits proper (filling.grows.trans (Builder.grows_filled m)).recalling
          inside (Builder.form_filled_self filling.inside m) ?_
        obtain ⟨form, made, agree⟩ := fits
        have isOpen : (c.recalling old).Open b.types.size := filling.isOpen
        exact ⟨form, made, agree.imp fun _ _ => isOpen.stands_filled m⟩
    · intro refused
      rcases proper with hidden | ⟨shown, only⟩
      · exact .inl ⟨hidden, refused⟩
      · exact .inr ⟨shown, refused.whole_of_single only⟩

omit sound in
/-- The members of a combination are built from the unnamed copy, while the type is unfinished. -/
theorem ensures_members (filling : b.Filling g base old (i, .allOf) c) (inside : i < b.schemas.size)
    (shown : ¬ (b.recalling old).Hidden i) (node : b.schemas.node i = n)
    (several : ∀ k, n.categories ≠ [k]) {copy : NodeId} (copied : copy < c.schemas.size)
    (hidden : c.Hidden copy) (unnamed : c.schemas.node copy = n.unnamed) :
    Ensures c (n.categories.mapM fun k => return Part.type (← inCategory sub copy k keyName))
      (fun parts later => c.Follows g base old False later ∧ (later.recalling old).PartsMatch g
        parts ((n.categories.map (Subject.part n.unnamed)).map .type))
      (b.Breaks g base old (.whole n)) := by
  have each : ∀ k ∈ n.categories, ∀ (done : List Category) (parts : List Part) d,
      (c.Follows g base old False d ∧ (d.recalling old).PartsMatch g parts
        ((done.map (Subject.part n.unnamed)).map .type)) →
      Ensures d (do return Part.type (← inCategory sub copy k keyName))
        (fun part later => c.Follows g base old False later ∧ (later.recalling old).PartsMatch g
          (parts ++ [part]) (((done ++ [k]).map (Subject.part n.unnamed)).map .type))
        (b.Breaks g base old (.whole n)) := by
    rintro k listed done parts d ⟨follows, agree⟩
    have there : copy < d.schemas.size := Nat.lt_of_lt_of_le copied follows.grows.schemas
    have unseen : (d.recalling old).Hidden copy :=
      Builder.hidden_recalling.mpr (.inl ((follows.grows.hidden_iff copied).mpr hidden))
    have kept : d.schemas.node copy = n.unnamed := (follows.grows.node copy copied).trans unnamed
    have made := ensures_inCategory k keyName sifts extension follows.sound there (.inl unseen)
    rw [kept] at made
    apply (made.imp (fun _ _ h => h) fun e later breaks => ?_).bind
    · rintro t e ⟨next, entry⟩
      refine ensures_pure ⟨follows.trans next, ?_⟩
      rw [List.map_append, List.map_append]
      refine List.rel_append (agree.imp fun _ _ part => part.imp fun _ _ => next.stands) ?_
      refine .cons (.type ⟨copy, Nat.lt_of_lt_of_le there next.grows.schemas, ?_, entry, ?_⟩) .nil
      · exact (next.grows.recalling.hidden_iff there).mpr unseen
      · rw [next.grows.recalled there, kept]
        exact .refl _
    · rw [← node]
      refine (filling.follows follows).breaks_whole inside shown breaks fun refused => ?_
      rw [node]
      exact refused.whole_of_several several listed
  have begun : c.Follows g base old False c ∧ (c.recalling old).PartsMatch g []
      ((([] : List Category).map (Subject.part n.unnamed)).map .type) :=
    ⟨.refl filling.sound, .nil⟩
  exact (ensures_mapM each begun).mono fun _ _ h => h.1

omit sound in
/-- What is done once the type of a node of several categories is an empty intersection. -/
theorem ensures_combined (filling : b.Filling g base old (i, .allOf) c)
    (inside : i < b.schemas.size) (shown : ¬ (b.recalling old).Hidden i)
    (node : b.schemas.node i = n) (several : ∀ k, n.categories ≠ [k]) (nameable : n.Nameable)
    (form : (c.types.node b.types.size).form =
      { kind := some .intersection, params := .many [], deprecated := n.deprecated }) :
    Ensures c (do
        let copy ← strip i
        let parts ← n.categories.mapM fun k => return Part.type (← inCategory sub copy k keyName)
        setParams b.types.size (.many parts)
        return b.types.size)
      (fun t later => b.Follows g base old False later ∧ ((i, .allOf), t) ∈ later.built)
      (b.Breaks g base old (.whole n)) := by
  have unhidden : ∀ later, b.Grows later → ¬ (later.recalling old).Hidden i := fun later grows =>
    mt (grows.recalling.hidden_iff inside).mp shown
  have stripped : Ensures c (strip i) (fun _ later => later.built = c.built)
      (b.Breaks g base old (.whole n)) := ensures_strip (fun _ _ => rfl) fun _ => rfl
  have visible : ¬ c.Hidden i := fun hidden =>
    unhidden c filling.grows (Builder.hidden_recalling.mpr (.inl hidden))
  apply ((meets_strip filling.sound filling.node_inside visible).ensures stripped).bind
  rintro copy d ⟨continues, ⟨copied, hidden, unnamed⟩, built⟩
  have next : c.Follows g base old False d := .of_continues continues built
  have going := filling.follows next
  rw [going.grows.node i inside, node] at unnamed
  apply (ensures_members sifts extension going inside shown node several copied hidden unnamed).bind
  rintro parts e ⟨after, agree⟩
  have last := going.follows after
  apply ensures_setParams
  refine ensures_pure ⟨last.completes ⟨?_, ?_⟩, last.entry⟩
  · rwa [(last.grows.trans (Builder.grows_filled _)).recalled inside, node]
  · have kept := (next.trans after).keeps _ filling.inside
    rw [form] at kept
    refine ⟨n.collectionForm .intersection (n.categories.map (.part n.unnamed)), .inr ⟨?_, ?_⟩, ?_⟩
    · exact unhidden _ (last.grows.trans (Builder.grows_filled _))
    · rw [(last.grows.trans (Builder.grows_filled _)).recalled inside, node,
        Node.form_of_several several]
    · have own : (((e.filled b.types.size { e.types.node b.types.size with
          params := .many parts }).recalling old).types.node b.types.size).form =
          { (e.types.node b.types.size).form with params := .many parts } :=
        Builder.form_filled_self last.inside _
      have isOpen : (e.recalling old).Open b.types.size := last.isOpen
      rw [own, kept]
      refine ⟨rfl, .many ?_, rfl, .nil, rfl, rfl, .none⟩
      exact agree.imp fun _ _ part => part.imp fun _ _ => isOpen.stands_filled _

theorem ensures_combination (inside : i < b.schemas.size) (shown : ¬ (b.recalling old).Hidden i)
    (node : b.schemas.node i = n) (several : ∀ k, n.categories ≠ [k]) :
    Ensures b (combination sub i n.categories keyName)
      (fun t later => b.Follows g base old False later ∧ ((i, .allOf), t) ∈ later.built)
      (b.Breaks g base old (.whole n)) := by
  unfold combination
  apply ensures_built
  split
  · rename_i t found
    exact ensures_pure ⟨.refl sound, mem_of_lookup found⟩
  · rename_i absent
    apply ensures_reserve
    have begun : b.Filling g base old (i, .allOf) (b.reserved i .allOf) :=
      .reserved sound inside absent
    apply (follows_definitionKey g old begun.sound).bind
    intro key c next
    have keyed := begun.follows next
    apply ensures_schema
    rw [keyed.grows.node i inside, node]
    have nameless : ¬ n.Nameable → b.Breaks g base old (.whole n) (.misused .name) c := by
      intro nameless
      have here : c.Breaks g base old (.whole n) (.misused .name) c :=
        Builder.breaks_here keyed.sound (.nameless nameless)
      rw [← node] at here ⊢
      exact keyed.breaks_whole inside shown here id
    apply (follows_standaloneName g old keyed.sound nameless).bind
    rintro name d ⟨next, nameable⟩
    have named := keyed.follows next
    apply ensures_fill
    have form := Builder.form_filled_self named.inside
      { n.describe .intersection keyName name with params := .many [] }
    refine ensures_combined sifts extension (named.filled (.inr ⟨?_, ?_, ?_, ?_⟩)) inside shown node
      several nameable form
    · exact mt (named.grows.recalling.hidden_iff inside).mp shown
    · rwa [(named.grows.trans (Builder.grows_filled _)).recalled inside, node]
    · exact congrArg Form.kind form
    · exact congrArg Form.params form

omit sound in
/-- A level that builds on a builder that fails where no type can be made does so, too. -/
theorem level_sifts : Subbuild.Sifts g base old (level sub) := by
  intro b s keyName sound admitted
  cases s with
  | bool allowed =>
    exact (ensures_leaf (s := .bool allowed) sound rfl trivial).mono
      fun _ _ h => ⟨h.1, h.2.2⟩
  | bare v =>
    exact (ensures_leaf (s := .bare v) sound rfl trivial).mono
      fun _ _ h => ⟨h.1, h.2.2⟩
  | node i =>
    obtain ⟨inside, shown⟩ := admitted
    apply ensures_noteRoot
    generalize noted : ({ b with root := some (b.root.getD i) } : Builder) = c
    have first : b.Follows g base old False c := by
      subst noted
      exact .of_continues (.of_same sound rfl rfl rfl rfl rfl) rfl
    have there := Nat.lt_of_lt_of_le inside first.grows.schemas
    have unhidden : ∀ later, b.Follows g base old False later → ¬ (later.recalling old).Hidden i :=
      fun later follows => mt (follows.grows.recalling.hidden_iff inside).mp shown
    have shows : ∀ later t, b.Follows g base old False later →
        ((i, (b.schemas.node i).slot), t) ∈ later.built →
        b.Follows g base old False later ∧ (later.recalling old).Shows t (.node i) := by
      intro later t follows entry
      refine ⟨follows, Nat.lt_of_lt_of_le inside follows.grows.schemas, unhidden later follows, ?_⟩
      rwa [follows.grows.recalled inside]
    apply ensures_schema
    rw [first.grows.node i inside]
    split
    · rename_i category only
      have proper : Proper (c.recalling old) i category :=
        .inr ⟨unhidden c first, (congrArg Node.categories (first.grows.node i inside)).trans only⟩
      have made := ensures_inCategory category keyName sifts extension first.sound there proper
      refine made.imp ?_ ?_
      · rintro t later ⟨next, entry⟩
        refine shows later t (first.trans next) ?_
        simpa only [Node.slot, only] using entry
      · rw [first.grows.node i inside]
        exact fun e later breaks => breaks.after first fun refused => refused.whole_of_single only
    · rename_i several
      refine (ensures_combination sifts extension first.sound there (unhidden c first)
        (first.grows.node i inside) several).imp ?_ ?_
      · rintro t later ⟨next, entry⟩
        refine shows later t (first.trans next) ?_
        rwa [Node.slot_of_several several]
      · exact fun e later breaks => breaks.after first id

end

theorem levels_sifts (extension : base.Extends g old) :
    ∀ fuel, Subbuild.Sifts g base old (levels fuel) := by
  intro fuel
  induction fuel with
  | zero => exact fun _ _ _ _ _ => ensures_throw fun fueled => absurd rfl fueled
  | succ fuel ih => exact level_sifts ih extension

end Build
end LinkedSchema
