import LinkedSchema.Proofs.Build.Mentions
import LinkedSchema.Proofs.Build.Sifting
/-! Builds credit what they note. A note is added to a type once it is built, or while it is. In the
second case it is lost when the type is filled, unless the type is one of several categories. -/
namespace LinkedSchema

variable {g : Graph} {b c d : Builder} {t : TypeId} {i : NodeId} {category : Category}
  {keyName name : Option String} {sub : Subbuild} {fuel : Nat} {s : Subschema}

/-- Nothing is excused. -/
def Unexcused : TypeId → Subschema → Prop := fun _ _ => False

/-- A builder that keeps to what it notes, from every sound state. -/
def Subbuild.Mindful (g : Graph) (sub : Subbuild) : Prop :=
  ∀ (b : Builder) (s : Subschema) (keyName : Option String), b.Sound g → b.types.Closed →
    b.Admits s → Build.Ensures b (sub s keyName)
      (fun t later => b.Continues g later ∧ later.Shows t s ∧ b.Heeds later) fun _ _ => True

namespace Build

variable {α : Type} {step : Build α} {post good : α → Builder → Prop}

theorem Ensures.and {bad : Fault → Builder → Prop} (first : Ensures b step post bad)
    (second : Ensures b step good bad) :
    Ensures b step (fun a later => post a later ∧ good a later) bad := by
  cases run : step b with
  | ok a later => exact ensures_of_ok run ⟨first.ok run, second.ok run⟩
  | error e later => exact ensures_of_error run (first.error run)

/-- A step that leaves the types alone. -/
theorem ensures_aside (meets : Meets g fuel b step post)
    (aside : Ensures b step (fun _ later => later.types = b.types ∧ later.built = b.built)
      fun _ _ => True) :
    Ensures b step (fun a later => b.Continues g later ∧ b.Heeds later ∧ post a later)
      fun _ _ => True := by
  refine ((meets.lower (Nat.zero_le _)).ensures aside).mono fun a later h => ?_
  obtain ⟨continues, holds, types, built⟩ := h
  exact ⟨continues, .of_same types built, holds⟩

theorem addNote_apply (t : TypeId) (note : String) : addNote t note b = .ok () { b with
    types := b.types.set t { b.types.node t with
      comment := (b.types.node t).comment.withNote note } } := rfl

theorem ensures_addNote (sound : b.Sound g) (inside : t < b.types.size) (note : String) :
    Ensures b (addNote t note) (fun _ later => b.Continues g later ∧ b.Heeds later ∧
      (later.types.node t).comment.Mentions note) fun _ _ => True := by
  have meets : Meets g 0 b (addNote t note) fun _ _ => True := meets_addNote sound
  refine ensures_of_ok (addNote_apply t note) ⟨(meets.ok (addNote_apply t note)).1, ?_, ?_⟩
  · refine ⟨fun closed => ?_, fun u _ => ?_, fun u _ text mentions => ?_,
      fun e listed => .inl listed⟩
    · exact closed.set (closed t inside)
    · exact TypeGraph.node_set_like TypeNode.standaloneName inside (by rfl) u
    · show ((b.types.set t _).node u).comment.Mentions text
      by_cases same : t = u
      · subst same
        rw [TypeGraph.node_set_self inside]
        exact mentions.withNote note
      · rwa [TypeGraph.node_set_ne same]
  · show ((b.types.set t _).node t).comment.Mentions note
    rw [TypeGraph.node_set_self inside]
    exact Json.mentions_withNote _ note

theorem ensures_addType_heeds {n : TypeNode} (sound : b.Sound g) (bare : n.references = []) :
    Ensures b (addType n) (fun t later => b.Continues g later ∧ b.Heeds later ∧
      t < later.types.size) fun _ _ => True := by
  have run : addType n b = .ok b.types.size { b with types := b.types.push n } := rfl
  have meets : Meets g 0 b (addType n) _ := meets_addType sound
  obtain ⟨continues, inside, _⟩ := meets.ok run
  exact ensures_of_ok run ⟨continues, .push bare, inside⟩

theorem ensures_narrow_heeds {type : Json} (sound : b.Sound g) (inside : i < b.schemas.size)
    (listed : type ∈ (b.schemas.node i).typeList) :
    Ensures b (narrow i type) (fun copy later => b.Continues g later ∧ b.Heeds later ∧
      later.Admits (.node copy)) fun _ _ => True := by
  have meets : Meets g 0 b (narrow i type) _ := meets_narrow sound inside listed
  refine (ensures_aside meets ?_).mono fun copy later h => ?_
  · exact ensures_narrow (fun _ => trivial) (fun _ _ _ _ => ⟨rfl, rfl⟩) fun _ _ _ => ⟨rfl, rfl⟩
  · exact ⟨h.1, h.2.1, h.2.2.1, h.2.2.2.1⟩

/-- Each need is answered with nothing excused: what it notes has not been written over yet. -/
theorem ensures_need_answered (mindful : sub.Mindful g) (sound : b.Sound g)
    (closed : b.types.Closed) (inside : i < b.schemas.size) {need : Need}
    (offered : (b.schemas.node i).Offers (need.subject (b.schemas.node i))) :
    Ensures b (need.build sub i) (fun t later => b.Continues g later ∧ b.Heeds later ∧
      later.Answers Unexcused t need) fun _ _ => True := by
  cases need with
  | any keyName =>
    exact (ensures_addType_heeds sound rfl).mono fun t later h => ⟨h.1, h.2.1, h.2.2, nofun⟩
  | value v =>
    exact (ensures_addType_heeds sound rfl).mono fun t later h => ⟨h.1, h.2.1, h.2.2, nofun⟩
  | schema s keyName note =>
    have admitted : b.Admits s :=
      sound.admits (offered.below (sound.copies.children i inside))
    cases note with
    | none =>
      refine (mindful b s keyName sound closed admitted).mono fun t later h => ?_
      exact ⟨h.1, h.2.2, h.2.1.lt_size h.1.sound, nofun⟩
    | some note =>
      apply (mindful b s keyName sound closed admitted).bind
      rintro t c ⟨continues, shows, heeds⟩
      apply (ensures_addNote continues.sound (shows.lt_size continues.sound) note).bind
      rintro _ d ⟨after, noted, mentions⟩
      have shown : d.Shows t s := after.grows.shows (fun inside _ => after.keeps t inside) shows
      refine ensures_pure ⟨continues.trans after,
        heeds.trans continues.grows.types continues.sound after noted,
        shown.lt_size after.sound, ?_⟩
      rintro _ _ _ ⟨⟩
      exact ⟨shown, .inl mentions⟩
  | copy type =>
    apply (ensures_narrow_heeds sound inside offered).bind
    rintro copy c ⟨continues, heeds, admitted⟩
    refine (mindful c _ none continues.sound (heeds.closed closed) admitted).mono fun t later h => ?_
    exact ⟨continues.trans h.1, heeds.trans continues.grows.types continues.sound h.1 h.2.2,
      h.2.1.lt_size h.1.sound, nofun⟩

/-- The type made for a node after its plan, with nothing excused. -/
structure Made (b : Builder) (i : NodeId) (category : Category) (n : TypeNode) (later : Builder) :
    Prop where
  planned : ∃ fileName plan form, (b.schemas.node i).plan i fileName category = .ok plan ∧
    plan n.standaloneName = .ok form ∧ n.form.Matches Eq (later.Answers Unexcused) form

theorem ensures_shape_made (mindful : sub.Mindful g) (sound : b.Sound g)
    (closed : b.types.Closed) (inside : i < b.schemas.size) :
    Ensures b (shape sub i category keyName) (fun n later => b.Continues g later ∧ b.Heeds later ∧
      Made b i category n later) fun _ _ => True := by
  rw [shape_eq_prepare]
  have prepared : Ensures b (prepare i category keyName)
      (fun r c => ∃ plan, r.1 = b.schemas.node i ∧
        (b.schemas.node i).plan i b.fileName category = .ok plan ∧ plan r.2.1 = .ok r.2.2 ∧
        b.Continues g c ∧ b.Heeds c ∧ c.schemas = b.schemas) fun _ _ => True :=
    ensures_prepare rfl (fun plan name form usedNames definitions _ planned made =>
      ⟨plan, rfl, planned, made, .of_same sound rfl rfl rfl rfl rfl, .of_same rfl rfl, rfl⟩)
      fun _ _ _ _ => trivial
  apply prepared.bind
  rintro ⟨n, name, form⟩ c ⟨plan, rfl, planned, made, continues, heeds, same⟩
  have each : ∀ need ∈ form.references, ∀ (done : List Need) (results : List TypeId) d,
      (c.Continues g d ∧ c.Heeds d ∧ List.Forall₂ (d.Answers Unexcused) results done) →
      Ensures d (need.build sub i) (fun t later => c.Continues g later ∧ c.Heeds later ∧
        List.Forall₂ (later.Answers Unexcused) (results ++ [t]) (done ++ [need]))
        fun _ _ => True := by
    rintro need listed done results d ⟨before, kept, answers⟩
    have there : i < c.schemas.size := same ▸ inside
    have node : d.schemas.node i = b.schemas.node i := by
      rw [before.grows.node i there, same]
    have offered : (d.schemas.node i).Offers (need.subject (d.schemas.node i)) := by
      rw [node]
      exact Node.offers_of_need (Node.formIn_of_plan planned made) listed
    have below := Nat.lt_of_lt_of_le there before.grows.schemas
    refine (ensures_need_answered mindful before.sound (kept.closed (heeds.closed closed)) below
      offered).mono fun t later h => ?_
    obtain ⟨after, next, answer⟩ := h
    refine ⟨before.trans after, kept.trans before.grows.types before.sound after next, ?_⟩
    exact List.rel_append (answers.imp fun _ _ answer => answer.later after next fun _ h => h)
      (.cons answer .nil)
  apply (ensures_traverse each ⟨.refl continues.sound, .refl c, .nil⟩).bind
  rintro x d ⟨⟨after, next, answers⟩, alike⟩
  refine ensures_pure ⟨continues.trans after,
    heeds.trans continues.grows.types continues.sound after next, ?_⟩
  exact ⟨b.fileName, plan, form, planned, made, alike.of_references answers⟩

end Build

namespace Builder

theorem Sound.filled (sound : b.Sound g) (t : TypeId) (n : TypeNode) : (b.filled t n).Sound g where
  copies := sound.copies
  built e listed := by
    rw [Builder.filled, TypeGraph.size_set]
    exact sound.built e listed
  builtOnce := sound.builtOnce

end Builder

namespace Build

variable {n : TypeNode}

/-- A type that stands for a schema while its own entry is built is the type of that schema in the
only category that it has. -/
theorem single_of_shows (sound : b.Sound g) (proper : Proper b i category)
    (continues : (b.reserved i category).Continues g c) (shows : c.Shows b.types.size s)
    (inside : i < b.schemas.size) : ∃ j category, s = .node j ∧
      (c.schemas.node j).categories = [category] ∧ ((j, category), b.types.size) ∈ c.built := by
  cases s with
  | node j =>
    obtain ⟨within, shown, entry⟩ := shows
    have own : ((j, (c.schemas.node j).slot), b.types.size) = ((i, category), b.types.size) := by
      rcases continues.complete _ entry with old | ⟨new, _⟩
      · rcases List.mem_cons.mp old with same | older
        · exact same
        · exact absurd (sound.built _ older).2 (Nat.lt_irrefl _)
      · exact absurd reserved_inside (Nat.not_lt.mpr new)
    obtain ⟨rfl, slot⟩ := Prod.mk.inj (Prod.mk.inj own).1
    refine ⟨j, category, rfl, ?_, slot ▸ entry⟩
    rcases proper with hidden | ⟨_, only⟩
    · exact absurd ((continues.grows.hidden_iff inside).mpr hidden) shown
    · rwa [continues.grows.node j inside]
  | bool allowed =>
    exact absurd shows.2 (continues.opened reserved_inside reserved_open _)
  | bare v => exact absurd shows.2 (continues.opened reserved_inside reserved_open _)

/-- When a type is filled, what was noted on it is lost. All that was built in the meantime is
enclosed in it. -/
theorem heeds_filled (sound : b.Sound g) (inside : i < b.schemas.size)
    (closed : b.types.Closed) (proper : Proper b i category)
    (continues : (b.reserved i category).Continues g c)
    (heeds : (b.reserved i category).Heeds c) (made : Made (b.reserved i category) i category n c)
    (yields : (b.reserved i category).Yields n.references n.standaloneName c) :
    b.Heeds (c.filled b.types.size n) := by
  have here : b.types.size < c.types.size :=
    Nat.lt_of_lt_of_le reserved_inside continues.grows.types
  have isOpen := continues.opened reserved_inside reserved_open
  have self : (c.filled b.types.size n).types.node b.types.size = n :=
    TypeGraph.node_set_self here n
  have blank : (b.reserved i category).types.node b.types.size = {} := TypeGraph.node_push_self _ _
  have bare : (c.types.node b.types.size).references = [] := by
    have same := congrArg Form.references (continues.keeps _ reserved_inside)
    rwa [TypeNode.references_form, TypeNode.references_form, blank] at same
  have apart {u : TypeId} (old : u < b.types.size) :
      (c.filled b.types.size n).types.node u = c.types.node u :=
    TypeGraph.node_set_ne (Nat.ne_of_gt old) n
  have first {u : TypeId} (old : u < b.types.size) :
      (b.reserved i category).types.node u = b.types.node u := TypeGraph.node_push_of_lt old _
  have referred : ∀ v ∈ n.references, v < c.types.size := by
    intro v refers
    obtain ⟨_, _, form, _, _, agree⟩ := made.planned
    rw [← TypeNode.references_form] at refers
    obtain ⟨_, answers⟩ := exists_of_forall₂ agree.references v refers
    exact answers.inside
  have older : ∀ v < b.types.size, ∀ w ∈ ((c.filled b.types.size n).types.node v).references,
      w < b.types.size := by
    intro v old w refers
    rw [apart old] at refers
    have same := congrArg Form.references
      (continues.keeps v (Nat.lt_trans old reserved_inside))
    rw [TypeNode.references_form, TypeNode.references_form, first old] at same
    exact closed v old w (same ▸ refers)
  have leads (u : TypeId) (new : b.types.size ≤ u) (below : u < c.types.size) :
      (c.filled b.types.size n).types.Reaches b.types.size u := by
    rcases Nat.eq_or_lt_of_le new with rfl | later
    · exact .refl
    · obtain ⟨v, refers, reached⟩ :=
        yields.reached u (Nat.le_trans (Nat.le_of_eq (TypeGraph.size_push _ _)) later) below
      refine .head ?_ (reached.set bare)
      show v ∈ ((c.filled b.types.size n).types.node b.types.size).references
      rwa [self]
  have encloses {u : TypeId} {s : Subschema} (new : b.types.size ≤ u) (below : u < c.types.size)
      (shows : c.Shows b.types.size s) :
      (c.filled b.types.size n).Encloses u b.types.size s :=
    have single := single_of_shows sound proper continues shows inside
    ⟨single, TypeGraph.spawns_of_reaches older (leads u new below) new⟩
  have own : (c.filled b.types.size n).Credited ((i, category), b.types.size) := by
    obtain ⟨fileName, plan, form, planned, made, agree⟩ := made.planned
    refine fun _ => ⟨fileName, plan, form, ?_, by rwa [self], ?_⟩
    · show (c.schemas.node i).plan i fileName category = .ok plan
      rwa [continues.grows.node i inside]
    · rw [self]
      exact agree.imp fun v need answers => answers.filled isOpen (fun _ => nofun)
        fun s note shows _ => .inr (encloses (Nat.le_refl _) here shows)
  have known {e : (NodeId × Category) × TypeId} (old : e ∈ (b.reserved i category).built) :
      e ∈ b.built ∨ (c.filled b.types.size n).Credited e := by
    rcases List.mem_cons.mp old with rfl | older
    · exact .inr own
    · exact .inl older
  refine ⟨fun closed => ?_, fun u old => ?_, fun u old note mentions => ?_, fun e listed => ?_⟩
  · exact (heeds.closed (closed.push rfl)).set referred
  · rw [apart old, heeds.name u (Nat.lt_trans old reserved_inside), first old]
  · rw [apart old]
    exact heeds.mentions u (Nat.lt_trans old reserved_inside) note (by rwa [first old])
  · rcases heeds.credited e listed with old | credited
    · exact known old
    · rcases continues.complete e listed with old | ⟨new, _⟩
      · exact known old
      · have below := (continues.sound.built e listed).2
        have later : b.types.size < e.2 := Nat.lt_of_lt_of_le reserved_inside new
        exact .inr (credited.filled (Nat.ne_of_lt later) bare isOpen fun s note shows _ =>
          .inr (encloses (Nat.le_of_lt later) below shows))

theorem heeds_inCategory (mindful : sub.Mindful g) (reliable : sub.Reliable g fuel)
    (tidy : sub.Tidy) (sound : b.Sound g) (closed : b.types.Closed) (inside : i < b.schemas.size)
    (proper : Proper b i category) :
    Ensures b (inCategory sub i category keyName) (fun t later => b.Continues g later ∧
      b.Heeds later ∧ ((i, category), t) ∈ later.built) fun _ _ => True := by
  have meets : Meets g (fuel + 1) b (inCategory sub i category keyName) _ :=
    meets_inCategory reliable sound inside proper
  have heeds : Ensures b (inCategory sub i category keyName) (fun _ later => b.Heeds later)
      fun _ _ => True := by
    unfold inCategory
    apply ensures_built
    split
    · exact ensures_pure (.refl b)
    · rename_i absent
      apply ensures_reserve
      have begun := Builder.sound_reserved sound inside absent
      have named : Ensures (b.reserved i category) (shape sub i category keyName)
          (fun n later => (b.reserved i category).Yields n.references n.standaloneName later)
          fun _ _ => True := (yields_shape tidy).imp (fun _ _ h => h) fun _ _ _ => trivial
      apply ((ensures_shape_made mindful begun (closed.push rfl) inside).and named).bind
      rintro n c ⟨⟨continues, heeds, made⟩, yields⟩
      apply ensures_fill
      exact ensures_pure (heeds_filled sound inside closed proper continues heeds made yields)
  exact ((meets.lower (Nat.zero_le _)).ensures heeds).mono fun t later h => ⟨h.1, h.2.2, h.2.1⟩

/-- Members of a combination are built one after the other. -/
theorem heeds_parts (mindful : sub.Mindful g) (reliable : sub.Reliable g fuel) (tidy : sub.Tidy)
    (sound : b.Sound g) (closed : b.types.Closed) (inside : i < b.schemas.size)
    (hidden : b.Hidden i) (categories : List Category) :
    Ensures b (categories.mapM fun k => return Part.type (← inCategory sub i k keyName))
      (fun parts later => b.Continues g later ∧ b.Heeds later ∧
        ∀ t ∈ (Params.many parts).types, t < later.types.size) fun _ _ => True := by
  have each : ∀ k ∈ categories, ∀ (_ : List Category) (parts : List Part) c,
      (b.Continues g c ∧ b.Heeds c ∧ ∀ t ∈ (Params.many parts).types, t < c.types.size) →
      Ensures c (do return Part.type (← inCategory sub i k keyName))
        (fun p later => b.Continues g later ∧ b.Heeds later ∧
          ∀ t ∈ (Params.many (parts ++ [p])).types, t < later.types.size) fun _ _ => True := by
    rintro k _ _ parts c ⟨continues, heeds, made⟩
    have there := Nat.lt_of_lt_of_le inside continues.grows.schemas
    have unseen := (continues.grows.hidden_iff inside).mpr hidden
    apply (heeds_inCategory mindful reliable tidy continues.sound (heeds.closed closed) there
      (.inl unseen)).bind
    rintro t d ⟨next, kept, entry⟩
    refine ensures_pure ⟨continues.trans next,
      heeds.trans continues.grows.types continues.sound next kept, fun u listed => ?_⟩
    rw [Params.types, List.filterMap_append] at listed
    rcases List.mem_append.mp listed with old | new
    · exact Nat.lt_of_lt_of_le (made u old) next.grows.types
    · rw [List.mem_singleton.mp new]
      exact (next.sound.built _ entry).2
  have none : ∀ t ∈ (Params.many ([] : List Part)).types, t < b.types.size :=
    fun _ listed => absurd listed List.not_mem_nil
  exact (ensures_mapM each ⟨.refl sound, .refl b, none⟩).mono fun _ _ h => h.1

/-- An intersection keeps what is noted on it when it gets its members. -/
theorem heeds_combined (mindful : sub.Mindful g) (reliable : sub.Reliable g fuel) (tidy : sub.Tidy)
    (sound : b.Sound g) (closed : b.types.Closed) (inside : i < b.schemas.size)
    (shown : ¬ b.Hidden i) (filled : t < b.types.size)
    (kind : (b.types.node t).kind = some .intersection)
    (bare : (b.types.node t).references = []) (categories : List Category) :
    Ensures b (do
        let copy ← strip i
        let parts ← categories.mapM fun k => return Part.type (← inCategory sub copy k keyName)
        setParams t (.many parts)
        return t)
      (fun _ later => b.Heeds later ∧ (later.types.node t).kind = some .intersection)
      fun _ _ => True := by
  have meets : Meets g 0 b (strip i) _ := meets_strip sound inside shown
  have stripped := ensures_aside meets
    (ensures_strip (fun _ _ => ⟨rfl, rfl⟩) fun _ => ⟨rfl, rfl⟩)
  apply stripped.bind
  rintro copy c ⟨first, kept, copied, hidden, _⟩
  apply (heeds_parts mindful reliable tidy first.sound (kept.closed closed) copied hidden
    categories).bind
  rintro parts d ⟨next, heeds, made⟩
  have continues := first.trans next
  have all := kept.trans first.grows.types first.sound next heeds
  have same := continues.keeps t filled
  have there := Nat.lt_of_lt_of_le filled continues.grows.types
  have still : (d.types.node t).kind = some .intersection := (congrArg Form.kind same).trans kind
  have empty : (d.types.node t).references = [] := (congrArg Form.references same).trans bare
  have isOpen : d.Open t := Builder.open_of_kind (.inr still)
  apply ensures_setParams
  refine ensures_pure
    ⟨⟨fun _ => ?_, fun u old => ?_, fun u old note mentions => ?_, fun e listed => ?_⟩, ?_⟩
  · refine (all.closed closed).set fun u refers => made u ?_
    obtain ⟨others, spread⟩ := List.append_eq_nil_iff.mp empty
    obtain ⟨_, superTypes⟩ := List.append_eq_nil_iff.mp others
    simpa only [TypeNode.references, superTypes, spread, List.append_nil] using refers
  · exact (TypeGraph.node_set_like TypeNode.standaloneName there (by rfl) u).trans (all.name u old)
  · have like : ((d.types.set t { d.types.node t with params := .many parts }).node u).comment =
        (d.types.node u).comment := TypeGraph.node_set_like TypeNode.comment there (by rfl) u
    show ((d.types.set t _).node u).comment.Mentions note
    rw [like]
    exact all.mentions u old note mentions
  · rcases continues.complete e listed with known | ⟨new, _⟩
    · exact .inl known
    · refine (all.credited e listed).imp_right fun credited => ?_
      exact credited.filled (Nat.ne_of_lt (Nat.lt_of_lt_of_le filled new)) empty isOpen
        fun _ _ _ mentions => .inl mentions
  · rw [TypeGraph.node_set_self there]
    exact still

variable (keyName) in
theorem heeds_combination (mindful : sub.Mindful g) (reliable : sub.Reliable g fuel)
    (tidy : sub.Tidy) (sound : b.Sound g) (closed : b.types.Closed) (inside : i < b.schemas.size)
    (shown : ¬ b.Hidden i) (categories : List Category) :
    Ensures b (combination sub i categories keyName) (fun _ later => b.Heeds later)
      fun _ _ => True := by
  unfold combination
  apply ensures_built
  split
  · exact ensures_pure (.refl b)
  · rename_i absent
    apply ensures_reserve
    have begun := Builder.sound_reserved sound inside absent
    have keyed : Ensures (b.reserved i .allOf) (definitionKey i) (fun _ later =>
        later.Sound g ∧ later.types = b.types.push {} ∧ later.schemas = b.schemas ∧
        later.stripped = b.stripped ∧ later.built = ((i, .allOf), b.types.size) :: b.built)
        fun _ _ => True :=
      ensures_definitionKey fun _ _ => ⟨⟨begun.copies, begun.built, begun.builtOnce⟩, rfl, rfl,
        rfl, rfl⟩
    apply keyed.bind
    rintro key c ⟨soundKeyed, types, schemas, stripped, built⟩
    apply ensures_schema
    have named : Ensures c (standaloneName (c.schemas.node i) key) (fun _ later =>
        later.Sound g ∧ later.types = b.types.push {} ∧ later.schemas = b.schemas ∧
        later.stripped = b.stripped ∧ later.built = ((i, .allOf), b.types.size) :: b.built)
        fun _ _ => True :=
      ensures_standaloneName (fun _ => ⟨soundKeyed, types, schemas, stripped, built⟩)
        (fun _ _ => ⟨⟨soundKeyed.copies, soundKeyed.built, soundKeyed.builtOnce⟩, types, schemas,
          stripped, built⟩) fun _ => trivial
    apply named.bind
    rintro name d ⟨soundNamed, types, schemas, stripped, built⟩
    apply ensures_fill
    have here : b.types.size < d.types.size := by
      rw [types, TypeGraph.size_push]
      exact Nat.lt_succ_self _
    generalize filling : ({ (c.schemas.node i).describe .intersection keyName name with
      params := .many [] } : TypeNode) = n
    have self : (d.filled b.types.size n).types.node b.types.size = n :=
      TypeGraph.node_set_self here n
    have apart {u : TypeId} (old : u < b.types.size) :
        (d.filled b.types.size n).types.node u = b.types.node u := by
      refine (TypeGraph.node_set_ne (Nat.ne_of_gt old) n).trans ?_
      rw [types, TypeGraph.node_push_of_lt old]
    have filled : (d.filled b.types.size n).types.Closed := by
      refine TypeGraph.Closed.set ?_ ?_
      · rw [types]
        exact closed.push rfl
      · rw [← filling]
        nofun
    refine (heeds_combined mindful reliable tidy (soundNamed.filled b.types.size n) filled ?_ ?_ ?_ ?_
      ?_ categories).mono ?_
    · show i < d.schemas.size
      rwa [schemas]
    · show ¬ HiddenIn d.stripped i
      rwa [stripped]
    · exact Nat.lt_of_lt_of_eq here (TypeGraph.size_set _ _ _).symm
    · rw [self, ← filling]
      rfl
    · rw [self, ← filling]
      rfl
    · rintro _ later ⟨heeds, kind⟩
      have old {u : TypeId} (known : u < b.types.size) : u < (d.filled b.types.size n).types.size :=
        Nat.lt_trans known (Nat.lt_of_lt_of_eq here (TypeGraph.size_set _ _ _).symm)
      refine ⟨fun _ => heeds.closed filled, fun u known => ?_, fun u known note mentions => ?_,
        fun e listed => ?_⟩
      · rw [heeds.name u (old known), apart known]
      · exact heeds.mentions u (old known) note (by rwa [apart known])
      · rcases heeds.credited e listed with known | credited
        · have known : e ∈ ((i, .allOf), b.types.size) :: b.built := built ▸ known
          rcases List.mem_cons.mp known with rfl | older
          · refine .inr fun interface => ?_
            rw [kind] at interface
            cases interface
          · exact .inl older
        · exact .inr credited

/-- A level over a mindful builder is mindful. -/
theorem level_mindful (mindful : sub.Mindful g) (reliable : sub.Reliable g fuel)
    (tidy : sub.Tidy) : Subbuild.Mindful g (level sub) := by
  intro b s keyName sound closed admitted
  have meets := level_reliable reliable b s keyName sound admitted
  have heeds : Ensures b (level sub s keyName) (fun _ later => b.Heeds later) fun _ _ => True := by
    cases s with
    | bool allowed => exact ensures_of_ok rfl (.push rfl)
    | bare v => exact ensures_of_ok rfl (.push rfl)
    | node i =>
      obtain ⟨inside, shown⟩ := admitted
      apply ensures_noteRoot
      apply ensures_schema
      generalize noted : ({ b with root := some (b.root.getD i) } : Builder) = c
      obtain ⟨soundNoted, same⟩ : c.Sound g ∧ b.Heeds c := by
        subst noted
        exact ⟨⟨sound.copies, sound.built, sound.builtOnce⟩, .of_same rfl rfl⟩
      have continues : b.Continues g c := by
        subst noted
        exact .of_same sound rfl rfl rfl rfl rfl
      have there := Nat.lt_of_lt_of_le inside continues.grows.schemas
      have unhidden := mt (continues.grows.hidden_iff inside).mp shown
      have settle : ∀ d, c.Continues g d → c.Heeds d → b.Heeds d := fun d next heeds =>
        same.trans continues.grows.types soundNoted next heeds
      split
      · rename_i category only
        exact (heeds_inCategory mindful reliable tidy soundNoted (same.closed closed) there
          (.inr ⟨unhidden, only⟩)).mono fun t d h => settle d h.1 h.2.1
      · rename_i several
        have meets : Meets g (fuel + 1) c
            (combination sub i (c.schemas.node i).categories keyName) _ :=
          meets_combination reliable soundNoted there unhidden several
        have heeds := heeds_combination keyName mindful reliable tidy soundNoted
          (same.closed closed) there unhidden (c.schemas.node i).categories
        exact ((meets.lower (Nat.zero_le _)).ensures heeds).mono fun t d h => settle d h.1 h.2.2
  exact (meets.lower (Nat.zero_le _)).ensures heeds

theorem levels_mindful (g : Graph) (fuel : Nat) : (levels fuel).Mindful g := by
  induction fuel with
  | zero => exact fun _ _ _ _ _ _ => ensures_throw trivial
  | succ fuel ih => exact level_mindful ih (levels_reliable g fuel) (levels_tidy fuel)

end Build
end LinkedSchema
