import LinkedSchema.Proofs.Build.Noted
import LinkedSchema.Proofs.Build.Reuse
/-! What types keep once they are made. Later steps, those that fail too, change nothing but
comments of the types that are there, so an interface that is remembered goes on to have the members
that its node calls for. -/
namespace LinkedSchema

variable {b c d : Builder} {i : NodeId} {t u : TypeId} {n : TypeNode} {s : Subschema}
  {category : Category} {keyName : Option String} {need : Need}
  {e : (NodeId × Category) × TypeId}

namespace Builder

/-- A type with these contents, whatever its comment. -/
def Carries (b : Builder) (t : TypeId) (n : TypeNode) : Prop :=
  ∃ comment, b.types.node t = { n with comment }

/-- The type that is given for a schema found under a key: the one that is remembered for a node,
and one with the contents that belong there for anything else. -/
def Gives (b : Builder) (t : TypeId) (keyName : Option String) : Subschema → Prop
  | .node j => j < b.schemas.size ∧ ((j, (b.schemas.node j).slot), t) ∈ b.built
  | .bool allowed => b.Carries t (Build.booleanSchema keyName allowed)
  | .bare v => b.Carries t (Build.literal keyName v)

/-- What a need is supplied with, as far as interfaces have such needs. -/
def Supplies (b : Builder) (t : TypeId) : Need → Prop
  | .any keyName => b.Gives t keyName (.bool true)
  | .schema s keyName _ => b.Gives t keyName s
  | _ => True

/-- The type of an entry, if it is an interface, is made after the plan for its node. -/
def Furnished (b : Builder) (e : (NodeId × Category) × TypeId) : Prop :=
  (b.types.node e.2).kind = some .interface → ∃ name,
    (b.types.node e.2).form.Matches Eq b.Supplies ((b.schemas.node e.1.1).interfacePlan name)

/-- A state with tables in order, in which all interfaces that are remembered are furnished. -/
structure Orderly (b : Builder) : Prop where
  tame : b.Tame
  inside : ∀ e ∈ b.built, e.1.1 < b.schemas.size
  furnished : ∀ e ∈ b.built, b.Furnished e

/-- The later state is in order as well, and has all that the earlier one has, but for comments of
types. -/
structure Amends (b later : Builder) : Prop where
  orderly : later.Orderly
  retains : b.Retains later
  types : b.types.size ≤ later.types.size
  carries : ∀ t < b.types.size, later.Carries t (b.types.node t)

theorem Carries.form (carries : b.Carries t n) : (b.types.node t).form = n.form := by
  obtain ⟨comment, same⟩ := carries
  rw [same]
  rfl

theorem Carries.trans (first : b.Carries t n) (next : c.Carries u (b.types.node t)) :
    c.Carries u n := by
  obtain ⟨older, before⟩ := first
  obtain ⟨comment, same⟩ := next
  exact ⟨comment, by rw [same, before]⟩

theorem Carries.lt_size (carries : b.Carries t n) (filled : n.kind ≠ none) : t < b.types.size := by
  by_contra beyond
  have kind := congrArg Form.kind carries.form
  rw [TypeGraph.node_of_le (Nat.le_of_not_lt beyond)] at kind
  exact filled kind.symm

theorem Gives.carries_or (gives : b.Gives t keyName s) :
    (∃ j, s = .node j) ∨ ∃ n : TypeNode, b.Carries t n ∧ n.kind ≠ none ∧ s.leaf = some n.form ∧
      ∀ {later : Builder} {u : TypeId}, later.Carries u n → later.Gives u keyName s := by
  cases s with
  | node j => exact .inl ⟨j, rfl⟩
  | bool allowed => exact .inr ⟨_, gives, nofun, rfl, id⟩
  | bare v => exact .inr ⟨_, gives, nofun, rfl, id⟩

theorem Gives.later (retains : b.Retains c)
    (carries : t < b.types.size → s.leaf = some (b.types.node t).form →
      c.Carries t (b.types.node t))
    (gives : b.Gives t keyName s) : c.Gives t keyName s := by
  rcases gives.carries_or with ⟨j, rfl⟩ | ⟨n, here, filled, leaf, again⟩
  · obtain ⟨inside, entry⟩ := gives
    refine ⟨Nat.lt_of_lt_of_le inside retains.size, ?_⟩
    rw [retains.node j inside]
    exact retains.built.subset entry
  · exact again (here.trans (carries (here.lt_size filled) (by rw [leaf, here.form])))

/-- What is supplied stays so while the types of leaves keep their contents. -/
theorem Supplies.later (retains : b.Retains c)
    (carries : ∀ t < b.types.size, ∀ s : Subschema, s.leaf = some (b.types.node t).form →
      c.Carries t (b.types.node t))
    (supplies : b.Supplies t need) : c.Supplies t need := by
  cases need with
  | any keyName =>
    exact Gives.later (s := .bool true) retains (fun inside => carries t inside _) supplies
  | schema s keyName note => exact Gives.later retains (fun inside => carries t inside s) supplies
  | _ => trivial

theorem Furnished.later (furnished : b.Furnished e) (inside : e.1.1 < b.schemas.size)
    (retains : b.Retains c) (own : (c.types.node e.2).form = (b.types.node e.2).form)
    (carries : ∀ t < b.types.size, ∀ s : Subschema, s.leaf = some (b.types.node t).form →
      c.Carries t (b.types.node t)) : c.Furnished e := by
  intro kind
  obtain ⟨name, agree⟩ := furnished ((congrArg Form.kind own).symm.trans kind)
  refine ⟨name, ?_⟩
  rw [own, retains.node _ inside]
  exact agree.imp fun _ _ => .later retains carries

namespace Orderly

variable (orderly : b.Orderly)
include orderly

/-- Other tables with the same entries, and types that differ in comments at most or are new. -/
theorem amends (tame : c.Tame) (retains : b.Retains c) (built : c.built = b.built)
    (types : b.types.size ≤ c.types.size)
    (carries : ∀ t < b.types.size, c.Carries t (b.types.node t)) : b.Amends c where
  orderly := {
    tame
    inside e listed := Nat.lt_of_lt_of_le (orderly.inside e (built ▸ listed)) retains.size
    furnished e listed := by
      have here := built ▸ listed
      exact (orderly.furnished e here).later (orderly.inside e here) retains
        (carries e.2 (orderly.tame.types e here)).form fun t inside _ _ => carries t inside }
  retains := retains
  types := types
  carries := carries

theorem of_same (same : b.SameTables c)
    (carries : ∀ t < b.types.size, c.Carries t (b.types.node t)) : b.Amends c :=
  orderly.amends (same.tame orderly.tame) same.retains same.built same.types carries

/-- Nothing is done to types. -/
theorem aside (same : b.SameTables c) (types : c.types = b.types) : b.Amends c :=
  orderly.of_same same fun t _ => ⟨(b.types.node t).comment, by rw [types]⟩

theorem refl : b.Amends b := orderly.aside ⟨rfl, rfl, rfl, rfl, Nat.le_refl _⟩ rfl

theorem reserved (inside : i < b.schemas.size) (absent : b.built.lookup (i, category) = none) :
    b.Amends (b.reserved i category) := by
  have kept : ∀ t < b.types.size, (b.reserved i category).Carries t (b.types.node t) := fun t old =>
    ⟨(b.types.node t).comment, TypeGraph.node_push_of_lt old _⟩
  refine ⟨⟨orderly.tame.reserved absent, fun e listed => ?_, fun e listed => ?_⟩,
    retains_reserved, ?_, kept⟩
  · rcases List.mem_cons.mp listed with rfl | old
    · exact inside
    · exact orderly.inside e old
  · rcases List.mem_cons.mp listed with rfl | old
    · intro kind
      have blank : ((b.reserved i category).types.node b.types.size).kind = none :=
        congrArg TypeNode.kind (TypeGraph.node_push_self _ _)
      rw [blank] at kind
      cases kind
    · exact (orderly.furnished e old).later (orderly.inside e old) retains_reserved
        (kept e.2 (orderly.tame.types e old)).form fun t inside _ _ => kept t inside
  · exact Nat.le_of_lt Build.reserved_inside

end Orderly

theorem Amends.trans (first : b.Amends c) (next : c.Amends d) : b.Amends d where
  orderly := next.orderly
  retains := first.retains.trans next.retains
  types := Nat.le_trans first.types next.types
  carries t inside :=
    (first.carries t inside).trans (next.carries t (Nat.lt_of_lt_of_le inside first.types))

theorem Amends.supplies (amends : b.Amends c) (supplies : b.Supplies t need) :
    c.Supplies t need :=
  supplies.later amends.retains fun t inside _ _ => amends.carries t inside

theorem sameTables_filled : d.SameTables (d.filled t n) where
  schemas := rfl
  built := rfl
  stripped := rfl
  narrowed := rfl
  types := by simp [Builder.filled]

theorem Open.carries_filled (isOpen : d.Open t) (u : TypeId)
    (leaf : s.leaf = some (d.types.node u).form) : (d.filled t n).Carries u (d.types.node u) := by
  have other : t ≠ u := by
    rintro rfl
    exact isOpen s leaf
  exact ⟨(d.types.node u).comment, TypeGraph.node_set_ne other n⟩

/-- A type that is of no leaf gets other contents, and the interfaces of other entries are as they
were. -/
theorem Orderly.filled (orderly : d.Orderly) (isOpen : d.Open t)
    (listed : ((i, category), t) ∈ d.built)
    (own : (d.filled t n).Furnished ((i, category), t)) : (d.filled t n).Orderly where
  tame := sameTables_filled.tame orderly.tame
  inside := orderly.inside
  furnished e here := by
    by_cases same : e.2 = t
    · have key : e = ((i, category), t) :=
        List.inj_on_of_nodup_map orderly.tame.typesOnce here listed same
      exact key ▸ own
    · refine (orderly.furnished e here).later (orderly.inside e here)
        sameTables_filled.retains (form_filled_ne (Ne.symm same) n)
        fun u _ s leaf => isOpen.carries_filled u leaf

/-- What the later state has once a type is filled that the earlier one did not have. -/
theorem Amends.filled (amends : b.Amends d) (new : b.types.size ≤ t)
    (orderly : (d.filled t n).Orderly) : b.Amends (d.filled t n) where
  orderly := orderly
  retains := amends.retains.trans sameTables_filled.retains
  types := Nat.le_trans amends.types sameTables_filled.types
  carries u inside := by
    refine (amends.carries u inside).trans ⟨(d.types.node u).comment, ?_⟩
    exact TypeGraph.node_set_ne (Nat.ne_of_gt (Nat.lt_of_lt_of_le inside new)) n

end Builder

namespace Build

variable {α β : Type} {step : Build α} {post : α → Builder → Prop}

/-- From this state, the step amends what is there, whether it fails or not, and what it makes is as
it should be. -/
def Amending (b : Builder) (step : Build α) (post : α → Builder → Prop) : Prop :=
  Ensures b step (fun a later => b.Amends later ∧ post a later) fun _ later => b.Amends later

theorem amending_pure (orderly : b.Orderly) {a : α} (holds : post a b) :
    Amending b (pure a) post := ensures_pure ⟨orderly.refl, holds⟩

/-- A step that goes on from a state that amends this one. -/
theorem Amending.after (amends : b.Amends c) (rest : Amending c step post) :
    Ensures c step (fun a later => b.Amends later ∧ post a later) fun _ later => b.Amends later :=
  rest.imp (fun _ _ h => ⟨amends.trans h.1, h.2⟩) fun _ _ h => amends.trans h

theorem Amending.bind {next : α → Build β} {last : β → Builder → Prop}
    (first : Amending b step post)
    (rest : ∀ a later, b.Amends later → post a later → Amending later (next a) last) :
    Amending b (step >>= next) last := by
  apply Ensures.bind first
  rintro a c ⟨amends, holds⟩
  exact (rest a c amends holds).after amends

theorem amending_addType (orderly : b.Orderly) (n : TypeNode) :
    Amending b (addType n) fun t later => later.Carries t n := by
  refine ensures_of_ok rfl ⟨orderly.of_same ⟨rfl, rfl, rfl, rfl, by simp⟩ fun t inside => ?_, ?_⟩
  · exact ⟨(b.types.node t).comment, TypeGraph.node_push_of_lt inside n⟩
  · exact ⟨n.comment, TypeGraph.node_push_self _ n⟩

theorem amending_addNote (orderly : b.Orderly) (note : String) :
    Amending b (addNote t note) fun _ _ => True := by
  refine ensures_of_ok rfl
    ⟨orderly.of_same ⟨rfl, rfl, rfl, rfl, by simp⟩ fun u inside => ?_, trivial⟩
  by_cases same : t = u
  · subst same
    exact ⟨_, TypeGraph.node_set_self inside _⟩
  · exact ⟨(b.types.node u).comment, TypeGraph.node_set_ne same _⟩

theorem amending_noteRoot (orderly : b.Orderly) : Amending b (noteRoot i) fun _ _ => True :=
  ensures_of_ok rfl ⟨orderly.aside ⟨rfl, rfl, rfl, rfl, Nat.le_refl _⟩ rfl, trivial⟩

theorem amending_definitionKey (orderly : b.Orderly) :
    Amending b (definitionKey i) fun _ _ => True :=
  ensures_definitionKey fun _ _ =>
    ⟨orderly.aside ⟨rfl, rfl, rfl, rfl, Nat.le_refl _⟩ rfl, trivial⟩

theorem amending_standaloneName (orderly : b.Orderly) {n : Node} {key : Option String} :
    Amending b (standaloneName n key) fun _ _ => True :=
  ensures_standaloneName (fun _ => ⟨orderly.refl, trivial⟩)
    (fun _ _ => ⟨orderly.aside ⟨rfl, rfl, rfl, rfl, Nat.le_refl _⟩ rfl, trivial⟩)
    fun _ => orderly.refl

/-- What a type is made after is told by the plan of the node. -/
theorem amending_prepare (orderly : b.Orderly) :
    Amending b (prepare i category keyName) fun r _ => r.1 = b.schemas.node i ∧
      ∃ plan, (b.schemas.node i).plan i b.fileName category = .ok plan ∧ plan r.2.1 = .ok r.2.2 :=
  ensures_prepare rfl
    (fun plan _ _ _ _ _ planned made =>
      ⟨orderly.aside ⟨rfl, rfl, rfl, rfl, Nat.le_refl _⟩ rfl, rfl, plan, planned, made⟩)
    fun _ _ _ _ => orderly.aside ⟨rfl, rfl, rfl, rfl, Nat.le_refl _⟩ rfl

theorem amending_strip (orderly : b.Orderly) (inside : i < b.schemas.size) :
    Amending b (strip i) fun copy later => copy < later.schemas.size := by
  apply ensures_strip
  · exact fun copy found => ⟨orderly.refl, orderly.tame.stripped _ (mem_of_lookup found)⟩
  · refine fun _ => ⟨orderly.amends ?_ Builder.retains_copied rfl (Nat.le_refl _) fun t _ =>
      ⟨(b.types.node t).comment, rfl⟩, by simp⟩
    refine orderly.tame.copied inside (Node.children_unnamed _) ?_ fun e => .inl
    exact fun e listed => (List.mem_cons.mp listed).symm.imp_right (congrArg Prod.snd)

theorem amending_narrow (orderly : b.Orderly) (inside : i < b.schemas.size) {type : Json} :
    Amending b (narrow i type) fun copy later => copy < later.schemas.size := by
  apply ensures_narrow
  · exact fun _ => orderly.refl
  · exact fun e found _ _ =>
      ⟨orderly.refl, orderly.tame.narrowed e (List.mem_of_find?_eq_some found)⟩
  · refine fun _ _ _ => ⟨orderly.amends ?_ Builder.retains_copied rfl (Nat.le_refl _) fun t _ =>
      ⟨(b.types.node t).comment, rfl⟩, by simp⟩
    apply orderly.tame.copied inside (Node.children_ofType _ type) fun e => .inl
    exact fun e listed => (List.mem_cons.mp listed).symm.imp_right (congrArg Prod.snd)

end Build

/-- A builder that amends states that are in order, and gives the types of schemas. -/
def Subbuild.Amending (sub : Subbuild) : Prop :=
  ∀ (b : Builder) (s : Subschema) (keyName : Option String), b.Orderly → s.Below b.schemas.size →
    Build.Amending b (sub s keyName) fun t later => later.Gives t keyName s

namespace Build

variable {sub : Subbuild}

theorem amending_need (below : sub.Amending) (orderly : b.Orderly) (inside : i < b.schemas.size)
    (offered : (b.schemas.node i).Offers (need.subject (b.schemas.node i))) :
    Amending b (need.build sub i) fun t later => later.Supplies t need := by
  cases need with
  | any keyName => exact amending_addType orderly _
  | value v =>
    exact (amending_addType orderly _).imp (fun _ _ h => ⟨h.1, trivial⟩) fun _ _ h => h
  | schema s keyName note =>
    have known : s.Below b.schemas.size := offered.below (orderly.tame.closed i inside)
    cases note with
    | none => exact below b s keyName orderly known
    | some note =>
      apply (below b s keyName orderly known).bind
      intro t c amends gives
      apply (amending_addNote amends.orderly note).bind
      intro _ d noted _
      refine amending_pure noted.orderly ?_
      have supplied : c.Supplies t (.schema s keyName (some note)) := gives
      exact noted.supplies supplied
  | copy type =>
    apply (amending_narrow orderly inside).bind
    intro copy c amends copied
    exact (below c (.node copy) none amends.orderly copied).imp (fun _ _ h => ⟨h.1, trivial⟩)
      fun _ _ h => h

/-- The type of a node in a category is made after its plan there. -/
theorem amending_shape (below : sub.Amending) (orderly : b.Orderly) (inside : i < b.schemas.size) :
    Amending b (shape sub i category keyName) fun n later => n.kind = some .interface →
      ∃ name, n.form.Matches Eq later.Supplies ((b.schemas.node i).interfacePlan name) := by
  rw [shape_eq_prepare]
  apply (amending_prepare orderly).bind
  rintro ⟨n, name, form⟩ c prepared ⟨rfl, plan, planned, made⟩
  have each : ∀ need ∈ form.references, ∀ (done : List Need) (types : List TypeId) d,
      (c.Amends d ∧ List.Forall₂ d.Supplies types done) → Ensures d (need.build sub i)
        (fun t later => c.Amends later ∧
          List.Forall₂ later.Supplies (types ++ [t]) (done ++ [need]))
        fun _ later => c.Amends later := by
    rintro need listed done types d ⟨amends, supplied⟩
    have all := prepared.trans amends
    have node := all.retains.node i inside
    have offered := Node.offers_of_need (Node.formIn_of_plan planned made) listed
    rw [← node] at offered
    refine (amending_need below amends.orderly (Nat.lt_of_lt_of_le inside all.retains.size)
      offered).imp (fun t later h => ?_) fun _ _ h => amends.trans h
    refine ⟨amends.trans h.1, List.rel_append ?_ (.cons h.2 .nil)⟩
    exact supplied.imp fun _ _ => h.1.supplies
  have traversed := ensures_traverse each ⟨prepared.orderly.refl, .nil⟩
  apply Ensures.bind traversed
  rintro x d ⟨⟨amends, supplied⟩, alike⟩
  refine ensures_pure ⟨amends, fun kind => ⟨name, ?_⟩⟩
  have plain : form = (b.schemas.node i).interfacePlan name :=
    Node.interface_of_plan planned made (alike.kind.symm.trans kind)
  exact plain ▸ alike.of_references supplied

/-- A type that is reserved stays open until it is filled. -/
theorem open_reserved (amends : (b.reserved i category).Amends d) : d.Open b.types.size := by
  intro s
  rw [(amends.carries b.types.size reserved_inside).form]
  exact reserved_open s

theorem amending_inCategory (below : sub.Amending) (orderly : b.Orderly)
    (inside : i < b.schemas.size) :
    Amending b (inCategory sub i category keyName)
      fun t later => ((i, category), t) ∈ later.built := by
  unfold inCategory
  apply ensures_built
  split
  · rename_i t found
    exact amending_pure orderly (mem_of_lookup found)
  · rename_i absent
    have reserved := orderly.reserved inside absent
    have shaped : Amending (b.reserved i category) (shape sub i category keyName) _ :=
      amending_shape below reserved.orderly inside
    apply ensures_reserve
    apply Ensures.bind (shaped.imp (fun _ _ h => h) fun _ _ h => reserved.trans h)
    rintro n d ⟨amends, made⟩
    have entry : ((i, category), b.types.size) ∈ d.built :=
      amends.retains.built.subset List.mem_cons_self
    have isOpen := open_reserved amends
    apply ensures_fill
    refine ensures_pure ⟨(reserved.trans amends).filled (Nat.le_refl _)
      (amends.orderly.filled isOpen entry ?_), entry⟩
    intro kind
    have own : (d.filled b.types.size n).types.node b.types.size = n :=
      TypeGraph.node_set_self (Nat.lt_of_lt_of_le reserved_inside amends.types) n
    rw [own] at kind ⊢
    obtain ⟨name, agree⟩ := made kind
    refine ⟨name, ?_⟩
    have node : d.schemas.node i = b.schemas.node i := amends.retains.node i inside
    show n.form.Matches Eq _ ((d.schemas.node i).interfacePlan name)
    rw [node]
    exact agree.imp fun _ _ => .later Builder.sameTables_filled.retains
      fun u _ s leaf => isOpen.carries_filled u leaf

theorem amending_parts (below : sub.Amending) (orderly : b.Orderly) (inside : i < b.schemas.size)
    (categories : List Category) :
    Amending b (categories.mapM fun c => return Part.type (← inCategory sub i c keyName))
      fun _ _ => True := by
  have each : ∀ category ∈ categories, ∀ (_ : List Category) (_ : List Part) c, b.Amends c →
      Ensures c (do return Part.type (← inCategory sub i category keyName))
        (fun _ later => b.Amends later) fun _ later => b.Amends later := by
    intro category _ _ _ c kept
    have there := Nat.lt_of_lt_of_le inside kept.retains.size
    apply Ensures.bind ((amending_inCategory below kept.orderly there).after kept)
    rintro t d ⟨amends, _⟩
    exact ensures_pure amends
  exact (ensures_mapM each orderly.refl).imp (fun _ _ h => ⟨h.1, trivial⟩) fun _ _ h => h

/-- Types that are no interfaces have nothing to be furnished with. -/
theorem orderly_filled_intersection (orderly : d.Orderly) (isOpen : d.Open t)
    (listed : ((i, category), t) ∈ d.built) (kind : n.kind = some .intersection) :
    (d.filled t n).Orderly := by
  refine orderly.filled isOpen listed fun interface => ?_
  have own : (d.filled t n).types.node t = n :=
    TypeGraph.node_set_self (orderly.tame.types _ listed) n
  rw [own, kind] at interface
  cases interface

/-- The members of an intersection are set in a state that amends an earlier one, in which the
intersection was not there yet. -/
theorem amending_combined (below : sub.Amending) (before : b.Amends d) (new : b.types.size ≤ t)
    (inside : i < d.schemas.size) (listed : ((i, .allOf), t) ∈ d.built)
    (kind : (d.types.node t).kind = some .intersection) (categories : List Category) :
    Ensures d (do
        let copy ← strip i
        let parts ← categories.mapM fun c => return Part.type (← inCategory sub copy c keyName)
        setParams t (.many parts)
        return t)
      (fun u later => b.Amends later ∧ ((i, .allOf), u) ∈ later.built)
      fun _ later => b.Amends later := by
  apply Ensures.bind ((amending_strip before.orderly inside).imp (fun _ _ h => h)
    fun _ _ h => before.trans h)
  rintro copy e ⟨first, copied⟩
  apply Ensures.bind ((amending_parts below first.orderly copied categories).imp
    (fun _ _ h => first.trans h.1) fun _ _ h => before.trans (first.trans h))
  intro parts f next
  have entry := next.retains.built.subset listed
  have kept := (next.carries t (before.orderly.tame.types _ listed)).form
  have still : (f.types.node t).kind = some .intersection := (congrArg Form.kind kept).trans kind
  apply ensures_setParams
  refine ensures_pure ⟨(before.trans next).filled new ?_, entry⟩
  exact orderly_filled_intersection next.orderly (Builder.open_of_kind (.inr still)) entry still

theorem amending_combination (below : sub.Amending) (orderly : b.Orderly)
    (inside : i < b.schemas.size) (categories : List Category) :
    Amending b (combination sub i categories keyName)
      fun t later => ((i, .allOf), t) ∈ later.built := by
  unfold combination
  apply ensures_built
  split
  · rename_i t found
    exact amending_pure orderly (mem_of_lookup found)
  · rename_i absent
    have reserved := orderly.reserved inside absent
    have entry : ((i, .allOf), b.types.size) ∈ (b.reserved i .allOf).built := List.mem_cons_self
    apply ensures_reserve
    have keyed : Amending (b.reserved i .allOf) (definitionKey i) fun _ _ => True :=
      amending_definitionKey reserved.orderly
    apply Ensures.bind (keyed.imp (fun _ _ h => h.1) fun _ _ h => reserved.trans h)
    intro key c first
    apply ensures_schema
    have named : Amending c (standaloneName (c.schemas.node i) key) fun _ _ => True :=
      amending_standaloneName first.orderly
    apply Ensures.bind (named.imp (fun _ _ h => first.trans h.1)
      fun _ _ h => reserved.trans (first.trans h))
    intro name d second
    have here := second.retains.built.subset entry
    apply ensures_fill
    have filled : (d.filled b.types.size { (c.schemas.node i).describe .intersection keyName
        name with params := .many [] }).Orderly :=
      orderly_filled_intersection second.orderly (open_reserved second) here rfl
    have third := (reserved.trans second).filled (Nat.le_refl _) filled
    have there := Nat.lt_of_lt_of_le inside third.retains.size
    refine amending_combined below third (Nat.le_refl _) there here ?_ categories
    exact congrArg Form.kind (Builder.form_filled_self (second.orderly.tame.types _ here) _)

/-- A level over an amending builder is amending. -/
theorem level_amending (below : sub.Amending) : Subbuild.Amending (level sub) := by
  intro b s keyName orderly known
  cases s with
  | bool allowed => exact amending_addType orderly _
  | bare v => exact amending_addType orderly _
  | node i =>
    have gives : ∀ c later t, b.Amends c → c.Amends later →
        ((i, (c.schemas.node i).slot), t) ∈ later.built → later.Gives t keyName (.node i) := by
      intro c later t first next entry
      have there : i < c.schemas.size := Nat.lt_of_lt_of_le known first.retains.size
      exact ⟨Nat.lt_of_lt_of_le there next.retains.size, by rwa [next.retains.node i there]⟩
    apply (amending_noteRoot orderly).bind
    intro _ c noted _
    have there : i < c.schemas.size := Nat.lt_of_lt_of_le known noted.retains.size
    apply ensures_schema
    split
    · rename_i category only
      refine (amending_inCategory below noted.orderly there).imp (fun t later h => ⟨h.1, ?_⟩)
        fun _ _ h => h
      exact gives c later t noted h.1 (by simpa only [Node.slot, only] using h.2)
    · rename_i several
      refine (amending_combination below noted.orderly there _).imp (fun t later h => ⟨h.1, ?_⟩)
        fun _ _ h => h
      exact gives c later t noted h.1 (by rw [Node.slot_of_several several]; exact h.2)

theorem levels_amending (fuel : Nat) : (levels fuel).Amending := by
  induction fuel with
  | zero => exact fun _ _ _ orderly _ => ensures_throw orderly.refl
  | succ fuel ih => exact level_amending ih

end Build

end LinkedSchema
