import LinkedSchema.Proofs.Build.Represented
import LinkedSchema.Proofs.Build.Termination
/-! When builds fail. A build comes to the spots of a graph in the order of a search, and it fails
at the first one where no type can be made. -/
namespace LinkedSchema

variable {α β : Type} {g : Graph} {b c d : Builder} {sub : Subbuild} {o : Origin} {k : NodeId}
  {category : Category} {keyName fileName : Option String} {met order xs ys zs : List Spot}
  {e : Fault} {spots : α → List Spot}

namespace Builder

/-- Where a build that is asked for a schema is to go on. -/
inductive Leads (g : Graph) (b : Builder) : Subschema → List Spot → Prop where
  | node {o : Origin} {k : NodeId} : o.Shown → b.Represents g o k → Leads g b (.node k) [.whole o]
  | bool (allowed : Bool) : Leads g b (.bool allowed) []
  | bare (v : Json) : Leads g b (.bare v) []

/-- From the one state to the other the build has come to these spots, and none is spoilt. -/
structure Passes (g : Graph) (met order : List Spot) (b later : Builder) : Prop where
  advances : b.Advances later
  charts : later.Charts g (order.reverse ++ met)
  fine : ∀ x ∈ order, ¬ g.Spoilt x

/-- Unless it was for lack of fuel, the build has failed at the first spot that is spoilt. The fault
is the one of the node there, or of the copy that was made for the spot. -/
def Stops (g : Graph) (fileName : Option String) (order : List Spot) (e : Fault)
    (later : Builder) : Prop :=
  e ≠ .outOfFuel → ∃ before o category after k, order = before ++ .part o category :: after ∧
    (∀ x ∈ before, ¬ g.Spoilt x) ∧ later.Represents g o k ∧
    later.schemas.node k = g.content o ∧ (g.content o).faultIn k fileName category = some e

theorem Charts.passes (charts : c.Charts g met) (advances : b.Advances c) :
    Passes g met [] b c := ⟨advances, charts, nofun⟩

theorem Passes.trans (first : Passes g met xs b c) (next : Passes g (xs.reverse ++ met) ys c d) :
    Passes g met (xs ++ ys) b d where
  advances := first.advances.trans next.advances
  charts := by
    rw [List.reverse_append, List.append_assoc]
    exact next.charts
  fine := List.forall_mem_append.mpr ⟨first.fine, next.fine⟩

theorem Passes.aside (passes : Passes g met order b c) (types : TypeGraph) (usedNames : UsedNames)
    (definitions : DefinitionsCache) (root : Option NodeId) :
    Passes g met order b { c with types, usedNames, definitions, root } :=
  ⟨⟨passes.advances.stripped, passes.advances.narrowed, passes.advances.fileName⟩,
    passes.charts.aside types usedNames definitions root, passes.fine⟩

theorem Stops.within (fine : ∀ x ∈ xs, ¬ g.Spoilt x) (stops : Stops g fileName ys e d)
    (zs : List Spot) : Stops g fileName (xs ++ (ys ++ zs)) e d := by
  intro fueled
  obtain ⟨before, o, category, after, k, rfl, clean, fault⟩ := stops fueled
  refine ⟨xs ++ before, o, category, after ++ zs, k, by simp, ?_, fault⟩
  exact List.forall_mem_append.mpr ⟨fine, clean⟩

/-- The build has come to the first ones of these spots, and the others are what the steps that
remain lead to. -/
def Underway (g : Graph) (met order : List Spot) (spots : α → List Spot) (b : Builder)
    (rest : List α) (c : Builder) : Prop :=
  ∃ done left, order = done ++ left ∧ Passes g met done b c ∧
    DepthFirst g.next id (done.reverse ++ met) (rest.flatMap spots) left

theorem Underway.advances {rest : List α} (underway : Underway g met order spots b rest c) :
    b.Advances c := by
  obtain ⟨_, _, _, passes, _⟩ := underway
  exact passes.advances

theorem Underway.passes (underway : Underway g met order spots b [] c) :
    Passes g met order b c := by
  obtain ⟨done, left, rfl, passes, search⟩ := underway
  cases search
  simpa using passes

end Builder

open Builder (Passes Stops Underway)

/-- The builder comes to what a search finds from the schemas that it is asked for. -/
def Subbuild.Explores (g : Graph) (sub : Subbuild) : Prop :=
  ∀ b met spots order s keyName, b.Charts g met → b.Leads g s spots →
    DepthFirst g.next id met spots order →
      Build.Ensures b (sub s keyName) (fun _ later => Passes g met order b later)
        (Stops g b.fileName order)

namespace Build

/-- What comes after spots that were passed. -/
theorem ensures_onward {step : Build α} (first : Passes g met xs b c)
    (next : Ensures c step (fun _ later => Passes g (xs.reverse ++ met) ys c later)
      (Stops g c.fileName ys)) (zs : List Spot) :
    Ensures c step (fun _ later => Passes g met (xs ++ ys) b later)
      (Stops g b.fileName (xs ++ (ys ++ zs))) := by
  apply next.imp
  · exact fun _ d second => first.trans second
  · intro e d stops
    rw [first.advances.fileName] at stops
    exact stops.within first.fine zs

theorem underway_step {f : α → Build β} {a : α} {rest : List α}
    (underway : Underway g met order spots b (a :: rest) c)
    (each : ∀ met order, c.Charts g met → DepthFirst g.next id met (spots a) order →
      Ensures c (f a) (fun _ later => Passes g met order c later) (Stops g c.fileName order)) :
    Ensures c (f a) (fun _ later => Underway g met order spots b rest later)
      (Stops g b.fileName order) := by
  obtain ⟨done, left, rfl, passes, search⟩ := underway
  rw [List.flatMap_cons] at search
  obtain ⟨here, later, rfl, first, last⟩ := search.split
  have onward := ensures_onward passes (each _ _ passes.charts first) later
  apply onward.imp
  · intro _ d next
    refine ⟨done ++ here, later, by simp, next, ?_⟩
    simpa using last
  · exact fun _ _ h => h

variable (own : ∀ i < g.size, (g.node i).Declared) (explores : sub.Explores g)

section Needs

include own explores

/-- The build goes on where what is needed is built. -/
theorem explores_need (charts : b.Charts g met) (represents : b.Represents g o k) {need : Need}
    (offered : (g.content o).Offers (need.subject (g.content o)))
    (search : DepthFirst g.next id met ((need.subject (g.content o)).spots o) order) :
    Ensures b (need.build sub k) (fun _ later => Passes g met order b later)
      (Stops g b.fileName order) := by
  cases need with
  | any keyName =>
    cases search
    exact ensures_of_ok rfl ((charts.passes (.refl b)).aside _ _ _ _)
  | value v =>
    cases search
    exact ensures_of_ok rfl ((charts.passes (.refl b)).aside _ _ _ _)
  | copy type =>
    have declared := represents.declared charts.copies own
    have text := Node.isText_of_mem_typeList declared.type offered
    apply (ensures_narrow_charts charts represents text offered).bind
    rintro copy c ⟨advances, charted, made⟩
    have leads : c.Leads g (.node copy) [.whole (.ofType o type)] := .node trivial made
    have onward := ensures_onward (charted.passes advances)
      (explores c met _ order (.node copy) none charted leads search) []
    simpa using onward
  | schema s keyName note =>
    have children := charts.copies.children k (represents.inside charts.copies)
    rw [represents.content charts.copies] at children
    have leads : b.Leads g s s.spots := by
      cases s with
      | node j => exact .node trivial (.node (children _ offered))
      | bool allowed => exact .bool allowed
      | bare v => exact .bare v
    have entered := explores b met _ order s keyName charts leads search
    cases note with
    | none => exact entered
    | some note =>
      apply entered.bind
      intro t c passes
      have noted : Ensures c (addNote t note) (fun _ later => ∃ types, later = { c with types })
        (Stops g b.fileName order) := ensures_of_ok rfl ⟨_, rfl⟩
      apply noted.bind
      rintro _ _ ⟨types, rfl⟩
      exact ensures_pure (passes.aside types _ _ _)

/-- What a type is made of is built in the order of the search. -/
theorem explores_plan (charts : b.Charts g met) (represents : b.Represents g o k)
    {needs : Form Need}
    (made : (g.content o).formIn category = some (needs.map (Need.subject (g.content o))))
    (search : DepthFirst g.next id met (g.next (.part o category)) order) :
    Ensures b (needs.traverse (Need.build sub k)) (fun _ later => Passes g met order b later)
      (Stops g b.fileName order) := by
  let spots : Need → List Spot := fun need => (need.subject (g.content o)).spots o
  let keeps : List Need → List TypeId → Builder → Prop := fun rest _ c =>
    (∀ need ∈ rest, (g.content o).Offers (need.subject (g.content o))) ∧
      Underway g met order spots b rest c
  have each : ∀ need rest types c, keeps (need :: rest) types c →
      Ensures c (need.build sub k) (fun t d => keeps rest (types ++ [t]) d)
        (Stops g b.fileName order) := by
    rintro need rest types c ⟨offered, underway⟩
    obtain ⟨here, later⟩ := List.forall_mem_cons.mp offered
    have there := underway.advances.represents represents
    refine (underway_step underway fun met order charts search =>
      explores_need own explores charts there here search).mono ?_
    exact fun _ d underway => ⟨later, underway⟩
  have leads : needs.references.flatMap spots = g.next (.part o category) := by
    rw [← spots_of_form made, Form.references_map, List.flatMap_map]
  have start : keeps needs.references [] b := by
    refine ⟨fun _ => Node.offers_of_need made, [], order, rfl, charts.passes (.refl b), ?_⟩
    rw [leads]
    exact search
  exact (ensures_traverse_through each start).mono fun _ _ h => h.1.2.passes

end Needs

/-- At a single spot either the type is remembered, and there is nothing to come to, or it is the
first one to come to. -/
theorem single_of_charts (names : g.NamesTypes) (charts : b.Charts g met)
    {key : NodeId × Category} {x : Spot} (visitable : g.Visitable x) (keyed : b.Keyed g key x)
    (search : DepthFirst g.next id met [x] order) :
    (∃ t, b.built.lookup key = some t ∧ order = []) ∨
      (b.built.lookup key = none ∧ ∃ below, order = x :: below ∧
        DepthFirst g.next id (x :: met) (g.next x) below) := by
  have come := charts.lookup_isSome_iff names visitable keyed
  rcases search.single with ⟨known, rfl⟩ | ⟨below, rfl, new, under⟩
  · obtain ⟨t, found⟩ := Option.isSome_iff_exists.mp (come.mpr (by simpa using known))
    exact .inl ⟨t, found, rfl⟩
  · have absent : b.built.lookup key = none := by
      rw [← Option.not_isSome_iff_eq_none, come]
      simpa using new
    exact .inr ⟨absent, below, rfl, under⟩

/-- The order in which spots are come to from the type of a node in a category on, unless this type
is remembered: those that the type is remembered for, which are the spot of the category and maybe
the whole, and what is found from there. -/
def Enters (g : Graph) (b : Builder) (met order : List Spot) (o : Origin) (k : NodeId)
    (category : Category) : Prop :=
  (∃ t, b.built.lookup (k, category) = some t ∧ order = []) ∨
    (b.built.lookup (k, category) = none ∧ ∃ front below,
      order = front ++ [Spot.part o category] ++ below ∧ (∀ x ∈ front, ¬ g.Spoilt x) ∧
      (∀ x, g.Visitable x → (b.Keyed g (k, category) x ↔
        x ∈ (front ++ [Spot.part o category]).reverse)) ∧
      DepthFirst g.next id ((front ++ [Spot.part o category]).reverse ++ met)
        (g.next (.part o category)) below)

theorem enters_single (names : g.NamesTypes) (charts : b.Charts g met) (shown : o.Shown)
    (represents : b.Represents g o k) (only : (g.content o).categories = [category])
    (search : DepthFirst g.next id met [.whole o] order) :
    Enters g b met order o k category := by
  have whole : b.Keyed g (k, category) (.whole o) := by
    rw [charts.keyed_single represents only]
    simp
  have part : b.Keyed g (k, category) (.part o category) := ⟨represents, rfl⟩
  have alone : g.Visitable (.part o category) := fun _ => only
  rcases single_of_charts names charts (x := .whole o) shown whole search with
    known | ⟨absent, below, rfl, under⟩
  · exact .inl known
  · -- one type is remembered for both, so the category is as new as the whole
    have elsewhere : Spot.part o category ∉ met := by
      rw [← charts.lookup_isSome_iff names alone part, absent]
      nofun
    rw [Graph.next_of_single only] at under
    rcases under.single with ⟨known, rfl⟩ | ⟨below, rfl, _, under⟩
    · have here : Spot.part o category ∈ met := by simpa using known
      exact (elsewhere here).elim
    · refine .inr ⟨absent, [.whole o], below, rfl, ?_, ?_, under⟩
      · intro x listed
        rw [List.mem_singleton.mp listed]
        exact id
      · intro x _
        exact charts.keyed_single represents only x

theorem enters_unnamed (names : g.NamesTypes) (charts : b.Charts g met)
    (represents : b.Represents g (.unnamed o) k)
    (search : DepthFirst g.next id met [.part (.unnamed o) category] order) :
    Enters g b met order (.unnamed o) k category := by
  have part : b.Keyed g (k, category) (.part (.unnamed o) category) := ⟨represents, rfl⟩
  have hidden : g.Visitable (.part (.unnamed o) category) := False.elim
  rcases single_of_charts names charts hidden part search with
    known | ⟨absent, below, rfl, under⟩
  · exact .inl known
  · refine .inr ⟨absent, [], below, rfl, nofun, ?_, under⟩
    intro x visitable
    exact charts.keyed_unnamed represents x visitable

section Levels

include own explores

theorem explores_inCategory (charts : b.Charts g met) (represents : b.Represents g o k)
    (enters : Enters g b met order o k category) :
    Ensures b (inCategory sub k category keyName) (fun _ later => Passes g met order b later)
      (Stops g b.fileName order) := by
  have declared := represents.declared charts.copies own
  have content : b.schemas.node k = g.content o := represents.content charts.copies
  unfold inCategory
  apply ensures_built
  rcases enters with ⟨t, found, rfl⟩ | ⟨absent, front, below, rfl, clean, fresh, search⟩
  · rw [found]
    exact ensures_pure (charts.passes (.refl b))
  · rw [absent]
    apply ensures_reserve
    have begun : (b.reserved k category).Charts g
        ((front ++ [Spot.part o category]).reverse ++ met) :=
      charts.reserved (represents.inside charts.copies) fresh
    have kept : (b.reserved k category).schemas.node k = g.content o := content
    have prepared : Ensures (b.reserved k category) (prepare k category keyName)
        (fun r later => Passes g met (front ++ [Spot.part o category]) b later ∧
          (g.content o).formIn category = some (r.2.2.map (Need.subject (g.content o))))
        (Stops g b.fileName (front ++ [Spot.part o category] ++ below)) := by
      apply ensures_prepare kept
      · intro plan name form usedNames definitions _ planned made
        refine ⟨⟨⟨fun _ h => h, fun _ h => h, rfl⟩, begun.aside _ _ _ _, ?_⟩,
          Node.formIn_of_plan planned made⟩
        intro x listed
        rcases List.mem_append.mp listed with here | here
        · exact clean x here
        · rw [List.mem_singleton.mp here]
          exact declared.not_spoils_of_plan planned
      · intro e usedNames definitions cause _
        exact ⟨front, o, category, below, k, by simp, clean, represents, content,
          declared.faultIn_of_refused cause⟩
    rw [shape_eq_prepare]
    simp only [bind_assoc, pure_bind]
    apply prepared.bind
    rintro ⟨n, name, form⟩ c ⟨entered, made⟩
    have there := entered.advances.represents represents
    have built := explores_plan own explores entered.charts there made search
    have onward := ensures_onward entered built []
    rw [List.append_nil] at onward
    apply onward.bind
    intro parts d passes
    apply ensures_fill
    exact ensures_pure (passes.aside _ _ _ _)

variable (keyName) in
/-- The members of a combination are built from the unnamed copy. -/
theorem explores_members {copy : NodeId} {categories : List Category} (charts : b.Charts g met)
    (represents : b.Represents g (.unnamed o) copy)
    (search : DepthFirst g.next id met (categories.map (.part (.unnamed o))) order) :
    Ensures b (categories.mapM fun c => return Part.type (← inCategory sub copy c keyName))
      (fun _ later => Passes g met order b later) (Stops g b.fileName order) := by
  have names : g.NamesTypes := fun i inside => (own i inside).type
  let spots : Category → List Spot := fun category => [.part (.unnamed o) category]
  let build : Category → Build Part := fun category =>
    do return Part.type (← inCategory sub copy category keyName)
  have each : ∀ category rest (_ : List Part) c, Underway g met order spots b (category :: rest) c →
      Ensures c (build category) (fun _ d => Underway g met order spots b rest d)
        (Stops g b.fileName order) := by
    intro category rest _ c underway
    have there := underway.advances.represents represents
    refine underway_step (f := build) underway fun met order charts search => ?_
    have enters := enters_unnamed names charts there search
    apply (explores_inCategory own explores charts there enters).bind
    exact fun _ d passes => ensures_pure passes
  have start : Underway g met order spots b (categories ++ []) b := by
    refine ⟨[], order, rfl, charts.passes (.refl b), ?_⟩
    rw [List.append_nil, ← List.map_eq_flatMap]
    exact search
  let keeps : List Category → List Part → Builder → Prop := fun rest _ c =>
    Underway g met order spots b rest c
  have begun : keeps (categories ++ []) [] b := start
  exact (ensures_mapM_through each begun).mono fun _ _ h => h.1.passes

theorem explores_combination (charts : b.Charts g met) (shown : o.Shown)
    (represents : b.Represents g o k) (several : ∀ c, (g.content o).categories ≠ [c])
    (search : DepthFirst g.next id met [.whole o] order) :
    Ensures b (combination sub k (g.content o).categories keyName)
      (fun _ later => Passes g met order b later) (Stops g b.fileName order) := by
  have names : g.NamesTypes := fun i inside => (own i inside).type
  have declared := represents.declared charts.copies own
  have whole : b.Keyed g (k, .allOf) (.whole o) :=
    ⟨represents, (Node.slot_of_several several).symm⟩
  unfold combination
  apply ensures_built
  rcases single_of_charts names charts (x := .whole o) shown whole search with
    ⟨t, found, rfl⟩ | ⟨absent, below, rfl, under⟩
  · rw [found]
    exact ensures_pure (charts.passes (.refl b))
  · rw [absent]
    apply ensures_reserve
    have begun : (b.reserved k .allOf).Charts g ([.whole o] ++ met) :=
      charts.reserved (represents.inside charts.copies)
        (charts.keyed_several shown represents several)
    have entered : Passes g met [.whole o] b (b.reserved k .allOf) := by
      refine ⟨⟨fun _ h => h, fun _ h => h, rfl⟩, begun, fun x listed => ?_⟩
      rw [List.mem_singleton.mp listed]
      exact id
    -- the key and the name come before the copy, and neither is at fault
    have keyed : Ensures (b.reserved k .allOf) (definitionKey k)
        (fun _ later => Passes g met [.whole o] b later)
        (Stops g b.fileName (.whole o :: below)) :=
      ensures_definitionKey fun _ definitions => entered.aside _ _ definitions _
    apply keyed.bind
    intro key c first
    apply ensures_schema
    rw [(first.advances.represents represents).content first.charts.copies]
    have named : Ensures c (standaloneName (g.content o) key)
        (fun _ later => Passes g met [.whole o] b later)
        (Stops g b.fileName (.whole o :: below)) :=
      ensures_standaloneName (fun _ => first) (fun _ _ => first.aside _ _ _ _)
        fun nameless => (nameless declared.nameable).elim
    apply named.bind
    intro name d second
    apply ensures_fill
    have third := second.aside (d.types.set b.types.size
      { (g.content o).describe .intersection keyName name with params := .many [] })
      d.usedNames d.definitions d.root
    apply (ensures_strip_charts third.charts shown (third.advances.represents represents)).bind
    rintro copy e ⟨advances, charted, made⟩
    have fourth : Passes g met [.whole o] b e := third.trans (charted.passes advances)
    rw [Graph.next_of_several several] at under
    have onward := ensures_onward fourth
      (explores_members keyName own explores fourth.charts made under) []
    rw [List.append_nil] at onward
    apply onward.bind
    intro parts f passes
    apply ensures_setParams
    exact ensures_pure (passes.aside _ _ _ _)

/-- What a builder explores, the level above it explores. -/
theorem level_explores : Subbuild.Explores g (level sub) := by
  intro b met spots order s keyName charts leads search
  cases leads with
  | bool allowed =>
    cases search
    exact ensures_of_ok rfl ((charts.passes (.refl b)).aside _ _ _ _)
  | bare v =>
    cases search
    exact ensures_of_ok rfl ((charts.passes (.refl b)).aside _ _ _ _)
  | @node o k shown represents =>
    have names : g.NamesTypes := fun i inside => (own i inside).type
    have begun := (charts.passes (.refl b)).aside b.types b.usedNames b.definitions
      (some (b.root.getD k))
    have charts := charts.aside b.types b.usedNames b.definitions (some (b.root.getD k))
    apply ensures_noteRoot
    apply ensures_schema
    rw [represents.content charts.copies]
    split
    · rename_i category only
      exact (explores_inCategory own explores charts represents
        (enters_single names charts shown represents only search)).mono
          fun _ _ passes => begun.trans passes
    · rename_i several
      exact (explores_combination own explores charts shown represents several search).mono
        fun _ _ passes => begun.trans passes

end Levels

include own in
theorem levels_explore (fuel : Nat) : Subbuild.Explores g (levels fuel) := by
  induction fuel with
  | zero =>
    intro b met spots order s keyName _ _ _
    exact ensures_throw fun fueled => (fueled rfl).elim
  | succ fuel ih => exact level_explores own ih

section Fresh

variable {root : NodeId} (types : TypeGraph) (fileName keyName : Option String)
  (search : DepthFirst g.next id [] [.whole (.node root)] order)
include search own

theorem explores_fresh (closed : g.Closed) (inside : root < g.size) :
    Ensures (.fresh g types fileName) (typeOf (.node root) keyName)
      (fun _ later => Passes g [] order (.fresh g types fileName) later)
      (Stops g fileName order) := by
  have charts : (Builder.fresh g types fileName).Charts g [] :=
    ⟨(Builder.sound_fresh closed).copies, nofun, by simp [Builder.fresh]⟩
  have leads : (Builder.fresh g types fileName).Leads g (.node root) [.whole (.node root)] :=
    .node (o := .node root) trivial (.node inside)
  unfold typeOf
  apply ensures_get
  exact levels_explore own _ _ [] _ order _ keyName charts leads search

theorem stops_fresh (closed : g.Closed) (inside : root < g.size) {later : Builder}
    (run : typeOf (.node root) keyName (.fresh g types fileName) = .error e later) :
    ∃ before o category after k, order = before ++ .part o category :: after ∧
      (∀ x ∈ before, ¬ g.Spoilt x) ∧ (g.content o).Spoils category ∧
      later.Represents g o k ∧ later.schemas.node k = g.content o ∧
      (g.content o).faultIn k fileName category = some e := by
  have names : g.NamesTypes := fun i inside => (own i inside).type
  have fueled : e ≠ .outOfFuel := by
    rintro rfl
    have below : Subschema.Below g.size (.node root) := inside
    exact levels_ne_outOfFuel closed names below (Nat.le_refl _) later run
  have explored := explores_fresh own types fileName keyName search closed inside
  obtain ⟨before, o, category, after, k, split, clean, made, content, fault⟩ :=
    explored.error run fueled
  have spoils : (g.content o).Spoils category :=
    (Node.faultIn_isSome_iff _ k fileName _).mp (Option.isSome_iff_exists.mpr ⟨e, fault⟩)
  exact ⟨before, o, category, after, k, split, clean, spoils, made, content, fault⟩

end Fresh

theorem holds_of_mem_categories {n : Node} (listed : category ∈ n.categories) :
    category = .unnamedSchema ∨ Category.holds n category = true := by
  unfold Node.categories at listed
  split at listed
  · rename_i custom
    cases List.mem_singleton.mp listed
    exact .inr custom
  · split at listed
    · exact .inl (List.mem_singleton.mp listed)
    · exact .inr (List.mem_filter.mp listed).2

/-- A build comes to the categories of a node from the node itself. -/
theorem mem_categories_of_next {x : Spot} (below : .part o category ∈ g.next x) :
    ∃ p, category ∈ (g.content p).categories := by
  cases x with
  | whole p =>
    by_cases several : ∀ c, (g.content p).categories ≠ [c]
    · rw [Graph.next_of_several several] at below
      obtain ⟨c, listed, same⟩ := List.mem_map.mp below
      cases same
      exact ⟨p, listed⟩
    · obtain ⟨c, only⟩ := not_forall_not.mp several
      rw [Graph.next_of_single only] at below
      cases List.mem_singleton.mp below
      refine ⟨o, ?_⟩
      rw [only]
      exact List.mem_cons_self
  | part p other =>
    have nodes (members : List Subschema) :
        .part o category ∉ members.flatMap Subschema.spots := by
      intro listed
      obtain ⟨s, _, here⟩ := List.mem_flatMap.mp listed
      obtain ⟨_, _, same⟩ := Subschema.mem_spots.mp here
      cases same
    cases other with
    | union =>
      obtain ⟨_, _, same⟩ := List.mem_map.mp below
      cases same
    | _ => exact (nodes _ below).elim

/-- A build with nothing remembered does not fail where no node is a reference and no enumeration
has names. -/
theorem typeOf_ok (closed : g.Closed) (own : ∀ i < g.size, (g.node i).Declared)
    (plain : ∀ i < g.size, (g.node i).ref.isNull = true ∧ (g.node i).tsEnumNames.isNull = true)
    {root : NodeId} (inside : root < g.size) (types : TypeGraph)
    (fileName keyName : Option String) :
    ∃ t later, typeOf (.node root) keyName (.fresh g types fileName) = .ok t later := by
  have kept : ∀ p, (g.content p).ref.isNull = true ∧ (g.content p).tsEnumNames.isNull = true := by
    intro p
    induction p with
    | node i =>
      by_cases inside : i < g.size
      · exact plain i inside
      · rw [Graph.content, Graph.node_of_le (Nat.le_of_not_lt inside)]
        exact ⟨rfl, rfl⟩
    | unnamed p ih => exact ih
    | ofType p type ih => exact ih
  obtain ⟨order, search⟩ := Graph.exists_search closed (fun i inside => (own i inside).type) inside
  cases run : typeOf (.node root) keyName (.fresh g types fileName) with
  | ok t later => exact ⟨t, later, rfl⟩
  | error e later =>
    obtain ⟨before, o, category, after, _, rfl, _, spoils, _⟩ :=
      stops_fresh own types fileName keyName search closed inside run
    have reached := search.found_iff (x := .part o category).mp (by simp)
    rcases reached.cases_tail with same | ⟨x, _, y, below, same⟩
    · cases same
    · cases same
      obtain ⟨p, listed⟩ := mem_categories_of_next below
      have holds := holds_of_mem_categories listed
      cases category with
      | reference => simp [Category.holds, (kept p).1] at holds
      | namedEnum => simp [Category.holds, (kept p).2] at holds
      | _ => exact spoils.elim

/-- A build with nothing remembered fails just if a spoilt spot is reached from the node that it is
asked for. All that is reached can be searched, and the build fails at the first spoilt spot in the
order of the search. The fault is the one of the node there, or of the copy that was made for it. -/
theorem typeOf_fails_iff (closed : g.Closed) (own : ∀ i < g.size, (g.node i).Declared)
    {root : NodeId} (inside : root < g.size) (types : TypeGraph)
    (fileName keyName : Option String) :
    ((∃ e later, typeOf (.node root) keyName (.fresh g types fileName) = .error e later) ↔
      ∃ o category, Relation.ReflTransGen (DepthFirst.Step g.next id) (.whole (.node root))
        (.part o category) ∧ (g.content o).Spoils category) ∧
    (∃ order, DepthFirst g.next id [] [.whole (.node root)] order) ∧
    ∀ order, DepthFirst g.next id [] [.whole (.node root)] order →
      ∀ e later, typeOf (.node root) keyName (.fresh g types fileName) = .error e later →
        ∃ before o category after k, order = before ++ .part o category :: after ∧
          (∀ x ∈ before, ¬ g.Spoilt x) ∧ (g.content o).Spoils category ∧
          later.Represents g o k ∧ later.schemas.node k = g.content o ∧
          (g.content o).faultIn k fileName category = some e := by
  obtain ⟨order, search⟩ := Graph.exists_search closed (fun i inside => (own i inside).type) inside
  refine ⟨⟨?_, ?_⟩, ⟨order, search⟩, fun order search e later run => ?_⟩
  · rintro ⟨e, later, run⟩
    obtain ⟨before, o, category, after, _, rfl, _, spoils, _⟩ :=
      stops_fresh own types fileName keyName search closed inside run
    refine ⟨o, category, search.found_iff.mp ?_, spoils⟩
    simp
  · rintro ⟨o, category, reached, spoils⟩
    have found := search.found_iff.mpr reached
    rw [List.map_id] at found
    have explored := explores_fresh own types fileName keyName search closed inside
    cases run : typeOf (.node root) keyName (.fresh g types fileName) with
    | error e later => exact ⟨e, later, rfl⟩
    | ok t later => exact ((explored.ok run).fine _ found spoils).elim
  · exact stops_fresh own types fileName keyName search closed inside run

/-- A record that is also a choice with itself, and leads to an enumeration with too few names that
is also a reference, and to another reference. -/
def awry : Graph := ⟨#[
  { id := .str "awry", anyOf := some [.node 0, .bool true]
    properties := some [("first", .node 1), ("second", .node 2)] },
  { title := .str "too few", enum := .arr [.int 1, .int 2], tsEnumNames := .arr [.str "one"]
    ref := .str "#/one", parent := some 0 },
  { ref := .str "#/other", parent := some 0 }]⟩

/-- The enumeration is found to have too few names before it is found to be a reference. The fault
carries its unnamed copy. -/
theorem typeOf_awry_fails : ∃ later,
    typeOf (.node 0) none (.fresh awry .empty (some "awry.json")) =
      .error (.malformedEnum (.lengths 1 2) 4 (some "awry.json")) later ∧ (1, 4) ∈ later.stripped ∧
    ∃ order before o category after, DepthFirst awry.next id [] [.whole (.node 0)] order ∧
      order = before ++ .part o category :: after ∧ (∀ x ∈ before, ¬ awry.Spoilt x) ∧
      (awry.content o).Spoils category ∧ later.Represents awry o 4 ∧
      later.schemas.node 4 = awry.content o := by
  have closed : awry.Closed := by decide +kernel
  have own : ∀ i < awry.size, (awry.node i).Declared := by decide +kernel
  have inside : 0 < awry.size := by decide
  have run : (match typeOf (.node 0) none (.fresh awry .empty (some "awry.json")) with
      | .error (.malformedEnum (.lengths names values) k fileName) later =>
        decide (names = 1 ∧ values = 2 ∧ k = 4 ∧ fileName = some "awry.json" ∧
          (1, 4) ∈ later.stripped)
      | _ => false) = true := by decide +kernel
  obtain ⟨_, ⟨order, search⟩, stops⟩ :=
    typeOf_fails_iff closed own inside .empty (some "awry.json") none
  split at run
  · rename_i later failed
    obtain ⟨rfl, rfl, rfl, rfl, copied⟩ := of_decide_eq_true run
    obtain ⟨before, o, category, after, k, split, clean, spoils, made, content, fault⟩ :=
      stops order search _ later failed
    obtain ⟨place, _⟩ := Node.places_of_faultIn fault
    cases place
    exact ⟨later, failed, copied, order, before, o, category, after, search, split, clean, spoils,
      made, content⟩
  · cases run

end Build
end LinkedSchema
