import LinkedSchema.Proofs.Build.Amending
import LinkedSchema.Proofs.Build.Failures
import LinkedSchema.Proofs.Schema.Orphans
/-! What a build files its types under. Every type that is remembered was made for a node that the
build came to, or for a copy of such a node, in a category that the node calls for; and copies give
their types no names. -/
namespace LinkedSchema

variable {α β : Type} {g : Graph} {r i k : NodeId} {b c d : Builder} {o : Origin} {n : TypeNode}
  {category : Category} {keyName key : Option String} {t : TypeId} {s : Subschema} {sub : Subbuild}

/-- The categories under which a type may be remembered for an origin: one of those that combine,
for an unnamed copy, and otherwise the only one of the origin or the one that stands for several. -/
def Graph.Calls (g : Graph) (category : Category) : Origin → Prop
  | .unnamed o => category ∈ (g.content o).categories
  | o => category = (g.content o).slot

theorem Origin.Shown.calls_iff (shown : o.Shown) :
    g.Calls category o ↔ category = (g.content o).slot := by
  cases o with
  | unnamed o => exact shown.elim
  | _ => exact Iff.rfl

namespace Builder

/-- The definitions that were collected so far are of nodes of the graph, and of no copies. -/
def Collects (g : Graph) (b : Builder) : Prop := ∀ e ∈ b.definitions, ∀ x ∈ e.2, x.2.Below g.size

/-- The type of an entry, if it was made for a copy, has no name. Enumerations with names are apart:
they may get one from where they are found. -/
def Anonymous (g : Graph) (b : Builder) (e : (NodeId × Category) × TypeId) : Prop :=
  g.size ≤ e.1.1 → e.1.2 ≠ .namedEnum → (b.types.node e.2).standaloneName = none

/-- A state in which every type is filed under an origin that leads back to a node below the
root. -/
structure Filed (g : Graph) (r : NodeId) (b : Builder) : Prop where
  copies : Copies g b.schemas b.stripped b.narrowed
  tame : b.Tame
  entries : ∀ e ∈ b.built, ∃ o, b.Represents g o e.1.1 ∧ g.Reaches r o.base ∧ g.Calls e.1.2 o
  collects : b.Collects g
  anonymous : ∀ e ∈ b.built, b.Anonymous g e

/-- The later state is filed as well, and has all entries and names that the earlier one has. -/
structure Files (g : Graph) (r : NodeId) (b later : Builder) : Prop where
  filed : later.Filed g r
  advances : b.Advances later
  retains : b.Retains later
  types : b.types.size ≤ later.types.size
  names : ∀ t < b.types.size,
    (later.types.node t).standaloneName = (b.types.node t).standaloneName

/-- A schema that may be built: a node below the root, or a copy of one that is no unnamed one. -/
inductive Heads (g : Graph) (r : NodeId) (b : Builder) : Subschema → Prop where
  | node {o : Origin} {k : NodeId} : o.Shown → b.Represents g o k → g.Reaches r o.base →
      Heads g r b (.node k)
  | bool (allowed : Bool) : Heads g r b (.bool allowed)
  | bare (v : Json) : Heads g r b (.bare v)

theorem Files.trans (first : b.Files g r c) (next : c.Files g r d) : b.Files g r d where
  filed := next.filed
  advances := first.advances.trans next.advances
  retains := first.retains.trans next.retains
  types := Nat.le_trans first.types next.types
  names t old := (next.names t (Nat.lt_of_lt_of_le old first.types)).trans (first.names t old)

namespace Filed

variable (filed : b.Filed g r)
include filed

/-- Other definitions, names and types, as long as the types of entries keep their names. -/
theorem aside {types : TypeGraph} {usedNames : UsedNames} {definitions : DefinitionsCache}
    {root : Option NodeId} (size : b.types.size ≤ types.size)
    (names : ∀ t < b.types.size, (types.node t).standaloneName = (b.types.node t).standaloneName)
    (collects : ∀ e ∈ definitions, ∀ x ∈ e.2, x.2.Below g.size) :
    b.Files g r { b with types, usedNames, definitions, root } where
  filed := {
    copies := filed.copies
    tame := SameTables.tame (b := b) ⟨rfl, rfl, rfl, rfl, size⟩ filed.tame
    entries := filed.entries
    collects := collects
    anonymous e listed copy other :=
      (names e.2 (filed.tame.types e listed)).trans (filed.anonymous e listed copy other) }
  advances := ⟨fun _ h => h, fun _ h => h, rfl⟩
  retains := SameTables.retains (b := b) ⟨rfl, rfl, rfl, rfl, size⟩
  types := size
  names := names

theorem refl : b.Files g r b :=
  filed.aside (Nat.le_refl _) (fun _ _ => rfl) filed.collects

theorem reserved (represents : b.Represents g o k) (reached : g.Reaches r o.base)
    (calls : g.Calls category o) (absent : b.built.lookup (k, category) = none) :
    b.Files g r (b.reserved k category) where
  filed := {
    copies := filed.copies
    tame := filed.tame.reserved absent
    entries := List.forall_mem_cons.mpr ⟨⟨o, represents, reached, calls⟩, filed.entries⟩
    collects := filed.collects
    anonymous := by
      refine List.forall_mem_cons.mpr ⟨fun _ _ => ?_, fun e listed copy other => ?_⟩
      · exact congrArg TypeNode.standaloneName (TypeGraph.node_push_self b.types {})
      · refine Eq.trans ?_ (filed.anonymous e listed copy other)
        exact congrArg TypeNode.standaloneName
          (TypeGraph.node_push_of_lt (filed.tame.types e listed) {}) }
  advances := ⟨fun _ h => h, fun _ h => h, rfl⟩
  retains := retains_reserved
  types := by simp [Builder.reserved]
  names _ old := congrArg TypeNode.standaloneName (TypeGraph.node_push_of_lt old {})

/-- The type of an entry is filled. No other entry has this type. -/
theorem filled (listed : ((k, category), t) ∈ b.built)
    (own : g.size ≤ k → category ≠ .namedEnum → n.standaloneName = none) :
    (b.filled t n).Filed g r where
  copies := filed.copies
  tame := sameTables_filled.tame filed.tame
  entries := filed.entries
  collects := filed.collects
  anonymous := by
    intro e here copy other
    by_cases same : e.2 = t
    · have key : e = ((k, category), t) :=
        List.inj_on_of_nodup_map filed.tame.typesOnce here listed same
      subst key
      refine Eq.trans ?_ (own copy other)
      exact congrArg TypeNode.standaloneName
        (TypeGraph.node_set_self (filed.tame.types _ listed) n)
    · refine Eq.trans ?_ (filed.anonymous e here copy other)
      exact congrArg TypeNode.standaloneName (TypeGraph.node_set_ne (Ne.symm same) n)

/-- More copies come with no entries. -/
theorem copied (advances : b.Advances c) (copies : Copies g c.schemas c.stripped c.narrowed)
    (tame : c.Tame) (retains : b.Retains c) (built : c.built = b.built)
    (definitions : c.definitions = b.definitions) (types : c.types = b.types) :
    b.Files g r c where
  filed := {
    copies := copies
    tame := tame
    entries e listed := by
      obtain ⟨o, represents, rest⟩ := filed.entries e (built ▸ listed)
      exact ⟨o, advances.represents represents, rest⟩
    collects := by
      unfold Collects
      rw [definitions]
      exact filed.collects
    anonymous e listed := by
      unfold Anonymous
      rw [types]
      exact filed.anonymous e (built ▸ listed) }
  advances := advances
  retains := retains
  types := Nat.le_of_eq (by rw [types])
  names _ _ := by rw [types]

end Filed

/-- A type that was not there before is filled. -/
theorem Files.filled (files : b.Files g r c) (new : b.types.size ≤ t)
    (listed : ((k, category), t) ∈ c.built)
    (own : g.size ≤ k → category ≠ .namedEnum → n.standaloneName = none) :
    b.Files g r (c.filled t n) where
  filed := files.filed.filled listed own
  advances := ⟨files.advances.stripped, files.advances.narrowed, files.advances.fileName⟩
  retains := files.retains.trans sameTables_filled.retains
  types := by simpa [Builder.filled] using files.types
  names u old := by
    refine Eq.trans ?_ (files.names u old)
    exact congrArg TypeNode.standaloneName
      (TypeGraph.node_set_ne (Nat.ne_of_gt (Nat.lt_of_lt_of_le old new)) n)

/-- Copies are not among the definitions below any node. -/
theorem below_of_definitions (copies : Copies g b.schemas b.stripped b.narrowed) (i : NodeId) :
    ∀ x ∈ b.schemas.definitions i, x.2.Below g.size := by
  intro x listed
  obtain ⟨_, j, _, _, defined⟩ := Graph.mem_collectBelow _ _ _ listed
  have child := Node.definition_mem_children defined
  exact copies.children j (Graph.lt_size_of_child child) _ child

end Builder

/-- A builder that files what it builds. -/
def Subbuild.Files (g : Graph) (r : NodeId) (sub : Subbuild) : Prop :=
  ∀ (b : Builder) (s : Subschema) (keyName : Option String), b.Filed g r → b.Heads g r s →
    Build.Ensures b (sub s keyName) (fun _ later => b.Files g r later) fun _ _ => True

namespace Build

/-- From this state, the step goes on to file what it builds. -/
abbrev Filing (g : Graph) (r : NodeId) (b : Builder) (step : Build α)
    (post : α → Builder → Prop) : Prop :=
  Ensures b step (fun a later => b.Files g r later ∧ post a later) fun _ _ => True

theorem Filing.bind {step : Build α} {next : α → Build β} {post : α → Builder → Prop}
    {last : β → Builder → Prop} (first : Filing g r b step post)
    (rest : ∀ a later, b.Files g r later → post a later → Filing g r later (next a) last) :
    Filing g r b (step >>= next) last := by
  apply Ensures.bind first
  rintro a c ⟨files, holds⟩
  exact (rest a c files holds).mono fun _ _ h => ⟨files.trans h.1, h.2⟩

theorem filing_pure {post : α → Builder → Prop} {a : α} (filed : b.Filed g r) (holds : post a b) :
    Filing g r b (pure a) post := ensures_pure ⟨filed.refl, holds⟩

theorem filing_addType (filed : b.Filed g r) :
    Filing g r b (addType n) fun _ _ => True := by
  refine ensures_of_ok rfl ⟨filed.aside ?_ (fun t old => ?_) filed.collects, trivial⟩
  · simp
  · exact congrArg TypeNode.standaloneName (TypeGraph.node_push_of_lt old n)

theorem filing_addNote (filed : b.Filed g r) (note : String) :
    Filing g r b (addNote t note) fun _ _ => True := by
  refine ensures_of_ok rfl ⟨filed.aside ?_ (fun u inside => ?_) filed.collects, trivial⟩
  · simp
  · by_cases same : t = u
    · subst same
      exact (congrArg TypeNode.standaloneName (TypeGraph.node_set_self inside _)).trans rfl
    · exact congrArg TypeNode.standaloneName (TypeGraph.node_set_ne same _)

/-- Nothing is defined as a copy, so copies have no keys. -/
theorem filing_keyBelow (filed : b.Filed g r) (root : Option NodeId) :
    Filing g r b (keyBelow i root) fun key _ => g.size ≤ i → key = none := by
  have keyless (found : Definitions) (below : ∀ x ∈ found, x.2.Below g.size) :
      g.size ≤ i → found.keyOf i = none := by
    intro copy
    rw [Definitions.keyOf_eq_none_iff]
    exact fun key listed => Nat.not_lt.mpr copy (below _ listed)
  unfold keyBelow
  apply ensures_get
  cases known : b.definitions.lookup (root.getD (b.schemas.documentRoot i)) with
  | some found =>
    simp only [DefinitionsCache.keyFor, DefinitionsCache.get, known]
    refine ensures_of_ok rfl ⟨filed.refl, keyless found ?_⟩
    exact filed.collects _ (mem_of_lookup known)
  | none =>
    simp only [DefinitionsCache.keyFor, DefinitionsCache.get, known]
    have below := Builder.below_of_definitions filed.copies
      (root.getD (b.schemas.documentRoot i))
    refine ensures_of_ok rfl ⟨filed.aside (Nat.le_refl _) (fun _ _ => rfl) ?_, keyless _ below⟩
    exact List.forall_mem_cons.mpr ⟨below, filed.collects⟩

theorem filing_definitionKey (filed : b.Filed g r) :
    Filing g r b (definitionKey i) fun key _ => g.size ≤ i → key = none := by
  apply (filing_keyBelow filed none).bind
  intro key c files keyless
  cases key with
  | some key => exact filing_pure files.filed keyless
  | none =>
    apply ensures_get
    split
    · split
      · exact filing_pure files.filed fun _ => rfl
      · exact filing_keyBelow files.filed _
    · exact filing_pure files.filed fun _ => rfl

/-- Without a title, an identifier and a key no name is called for. -/
theorem standaloneName_none {m : Node} (title : m.title = .null) (id : m.id = .null) :
    standaloneName m none = pure none := by
  unfold standaloneName
  rw [title, id]
  rfl

theorem filing_standaloneName (filed : b.Filed g r) {m : Node}
    (nameless : g.size ≤ i → category ≠ .namedEnum →
      m.title = .null ∧ m.id = .null ∧ key = none) :
    Filing g r b (standaloneName m key)
      fun name _ => g.size ≤ i → category ≠ .namedEnum → name = none := by
  by_cases copy : g.size ≤ i ∧ category ≠ .namedEnum
  · obtain ⟨title, id, rfl⟩ := nameless copy.1 copy.2
    rw [standaloneName_none title id]
    exact filing_pure filed fun _ _ => rfl
  · have named : ∀ name : Option String, g.size ≤ i → category ≠ .namedEnum → name = none :=
      fun _ inside other => (copy ⟨inside, other⟩).elim
    refine ensures_standaloneName (fun _ => ⟨filed.refl, named _⟩) (fun _ _ => ⟨?_, named _⟩)
      fun _ => trivial
    exact filed.aside (Nat.le_refl _) (fun _ _ => rfl) filed.collects

/-- Copies have neither a title nor an identifier. -/
theorem nameless_of_copy (filed : b.Filed g r) (represents : b.Represents g o k)
    (copy : g.size ≤ k) : (b.schemas.node k).title = .null ∧ (b.schemas.node k).id = .null := by
  rw [represents.content filed.copies]
  cases represents with
  | node inside => exact absurd inside (Nat.not_lt.mpr copy)
  | unnamed => exact ⟨rfl, rfl⟩
  | ofType => exact ⟨rfl, rfl⟩

/-- What a type is made after is told by the content of the origin, and gives a copy no name. -/
theorem filing_prepare (filed : b.Filed g r) (represents : b.Represents g o k) :
    Filing g r b (prepare k category keyName) fun x _ => x.1 = g.content o ∧
      (∃ plan, (g.content o).plan k b.fileName category = .ok plan ∧ plan x.2.1 = .ok x.2.2) ∧
      (g.size ≤ k → category ≠ .namedEnum → x.2.1 = none) := by
  unfold prepare
  apply (filing_definitionKey filed).bind
  intro key c keyed keyless
  have there := keyed.advances.represents represents
  apply ensures_schema
  apply ensures_get
  have planned : Filing g r c
      (MonadExcept.ofExcept ((c.schemas.node k).plan k c.fileName category))
      (fun plan _ => (c.schemas.node k).plan k c.fileName category = .ok plan) :=
    ensures_ofExcept (fun _ found => ⟨keyed.filed.refl, found⟩) fun _ _ => trivial
  apply planned.bind
  intro plan d first found
  have named : Filing g r d (standaloneName (c.schemas.node k) (category.nameKey keyName key))
      fun name _ => g.size ≤ k → category ≠ .namedEnum → name = none := by
    refine filing_standaloneName first.filed fun copy other => ?_
    obtain ⟨title, id⟩ := nameless_of_copy keyed.filed there copy
    refine ⟨title, id, ?_⟩
    rw [keyless copy]
    cases category <;> first | rfl | exact absurd rfl other
  apply named.bind
  intro name e second nameless
  have formed : Filing g r e (MonadExcept.ofExcept (plan name))
      (fun form _ => plan name = .ok form) :=
    ensures_ofExcept (fun _ made => ⟨second.filed.refl, made⟩) fun _ _ => trivial
  apply formed.bind
  intro form f third made
  rw [there.content keyed.filed.copies, keyed.advances.fileName] at found
  exact filing_pure third.filed ⟨there.content keyed.filed.copies, ⟨plan, found, made⟩, nameless⟩

theorem filing_strip (filed : b.Filed g r) (shown : o.Shown) (represents : b.Represents g o k) :
    Filing g r b (strip k) fun copy later => later.Represents g (.unnamed o) copy := by
  have inside := represents.inside filed.copies
  apply ensures_strip
  · exact fun copy found => ⟨filed.refl, .unnamed represents (mem_of_lookup found)⟩
  · intro absent
    have copies := filed.copies.strip inside (represents.shown filed.copies shown)
      (ne_of_lookup absent)
    have advances : b.Advances { b with
        schemas := b.schemas.push (b.schemas.node k).unnamed
        stripped := (k, b.schemas.size) :: b.stripped } :=
      ⟨List.subset_cons_self _ _, List.Subset.refl _, rfl⟩
    refine ⟨filed.copied advances copies ?_ Builder.retains_copied rfl rfl rfl,
      .unnamed (advances.represents represents) List.mem_cons_self⟩
    refine filed.tame.copied inside (Node.children_unnamed _) ?_ fun e => .inl
    exact fun e listed => (List.mem_cons.mp listed).symm.imp_right (congrArg Prod.snd)

theorem filing_narrow (filed : b.Filed g r) (represents : b.Represents g o k) {type : Json}
    (listed : type ∈ (g.content o).typeList) :
    Filing g r b (narrow k type) fun copy later =>
      ∃ other, later.Represents g (.ofType o other) copy := by
  have inside := represents.inside filed.copies
  apply ensures_narrow
  · exact fun _ => trivial
  · intro e found _ _
    have known : e.1.1 = k ∧ e.1.2.alike type = true := by simpa using List.find?_some found
    refine ⟨filed.refl, e.1.2, .ofType represents ?_⟩
    rw [← known.1]
    exact List.mem_of_find?_eq_some found
  · intro absent flat _
    have own : type ∈ (b.schemas.node k).typeList := by
      rwa [represents.content filed.copies]
    have copies := filed.copies.narrow inside own flat (unlike_of_find absent)
    have advances : b.Advances { b with
        schemas := b.schemas.push ((b.schemas.node k).ofType type)
        narrowed := ((k, type), b.schemas.size) :: b.narrowed } :=
      ⟨List.Subset.refl _, List.subset_cons_self _ _, rfl⟩
    refine ⟨filed.copied advances copies ?_ Builder.retains_copied rfl rfl rfl, type,
      .ofType (advances.represents represents) List.mem_cons_self⟩
    apply filed.tame.copied inside (Node.children_ofType _ type) fun e => .inl
    exact fun e listed => (List.mem_cons.mp listed).symm.imp_right (congrArg Prod.snd)

section Levels

variable (below : sub.Files g r)
include below

theorem filing_need (filed : b.Filed g r) (represents : b.Represents g o k)
    (reached : g.Reaches r o.base) {need : Need}
    (offered : (g.content o).Offers (need.subject (g.content o))) :
    Filing g r b (need.build sub k) fun _ _ => True := by
  cases need with
  | any keyName => exact filing_addType filed
  | value v => exact filing_addType filed
  | copy type =>
    apply (filing_narrow filed represents offered).bind
    rintro copy c files ⟨other, made⟩
    have heads : c.Heads g r (.node copy) := .node (o := .ofType o other) trivial made reached
    exact (below c (.node copy) none files.filed heads).mono fun _ _ h => ⟨h, trivial⟩
  | schema s keyName note =>
    have heads : b.Heads g r s := by
      cases s with
      | bool allowed => exact .bool allowed
      | bare v => exact .bare v
      | node j =>
        have child : .node j ∈ (g.node o.base).children := by
          rw [← Graph.children_content]
          exact offered
        have inside := filed.copies.children k (represents.inside filed.copies) (.node j) (by
          rw [represents.content filed.copies]
          exact offered)
        exact .node (o := .node j) trivial (.node inside) (reached.tail (Node.leadsTo_iff.mpr child))
    have built : Filing g r b (sub s keyName) fun _ _ => True :=
      (below b s keyName filed heads).mono fun _ _ h => ⟨h, trivial⟩
    cases note with
    | none => exact built
    | some note =>
      apply built.bind
      intro t c files _
      apply (filing_addNote files.filed note).bind
      intro _ d noted _
      exact filing_pure noted.filed trivial

theorem filing_shape (filed : b.Filed g r) (represents : b.Represents g o k)
    (reached : g.Reaches r o.base) :
    Filing g r b (shape sub k category keyName) fun n _ =>
      g.size ≤ k → category ≠ .namedEnum → n.standaloneName = none := by
  rw [shape_eq_prepare]
  apply (filing_prepare filed represents).bind
  rintro ⟨n, name, form⟩ c prepared ⟨rfl, ⟨plan, planned, made⟩, nameless⟩
  have each : ∀ need ∈ form.references, ∀ (_ : List Need) (_ : List TypeId) d,
      c.Files g r d → Ensures d (need.build sub k) (fun _ later => c.Files g r later)
        fun _ _ => True := by
    intro need listed _ _ d files
    have there := (prepared.trans files).advances.represents represents
    refine (filing_need below files.filed there reached ?_).mono fun _ _ h => files.trans h.1
    exact Node.offers_of_need (Node.formIn_of_plan planned made) listed
  apply Ensures.bind (ensures_traverse each prepared.filed.refl)
  rintro x d ⟨files, _⟩
  exact ensures_pure ⟨files, nameless⟩

theorem filing_inCategory (filed : b.Filed g r) (represents : b.Represents g o k)
    (reached : g.Reaches r o.base) (calls : g.Calls category o) :
    Filing g r b (inCategory sub k category keyName) fun _ _ => True := by
  unfold inCategory
  apply ensures_built
  split
  · exact filing_pure filed trivial
  · rename_i absent
    have reserved := filed.reserved represents reached calls absent
    have shaped : Filing g r (b.reserved k category) (shape sub k category keyName) _ :=
      filing_shape below reserved.filed represents reached
    apply ensures_reserve
    apply Ensures.bind shaped
    rintro n c ⟨files, nameless⟩
    have all := reserved.trans files
    have listed : ((k, category), b.types.size) ∈ c.built :=
      files.retains.built.subset List.mem_cons_self
    apply ensures_fill
    exact ensures_pure ⟨all.filled (Nat.le_refl _) listed nameless, trivial⟩

/-- The members of an intersection are filed under the categories of what they are copies of. -/
theorem filing_parts (filed : b.Filed g r) (represents : b.Represents g (.unnamed o) k)
    (reached : g.Reaches r o.base) {categories : List Category}
    (own : categories ⊆ (g.content o).categories) :
    Filing g r b (categories.mapM fun c => return Part.type (← inCategory sub k c keyName))
      fun _ _ => True := by
  have each : ∀ category ∈ categories, ∀ (_ : List Category) (_ : List Part) c,
      b.Files g r c → Ensures c (do return Part.type (← inCategory sub k category keyName))
        (fun _ later => b.Files g r later) fun _ _ => True := by
    intro category listed _ _ c files
    have there := files.advances.represents represents
    apply Ensures.bind (filing_inCategory below files.filed there reached (own listed))
    rintro t d ⟨next, _⟩
    exact ensures_pure (files.trans next)
  exact (ensures_mapM each filed.refl).mono fun _ _ h => ⟨h.1, trivial⟩

theorem filing_combination (filed : b.Filed g r) (shown : o.Shown) (represents : b.Represents g o k)
    (reached : g.Reaches r o.base) (several : ∀ c, (g.content o).categories ≠ [c]) :
    Filing g r b (combination sub k (g.content o).categories keyName) fun _ _ => True := by
  have calls : g.Calls .allOf o := shown.calls_iff.mpr (Node.slot_of_several several).symm
  unfold combination
  apply ensures_built
  split
  · exact filing_pure filed trivial
  · rename_i absent
    have reserved := filed.reserved represents reached calls absent
    apply ensures_reserve
    have keyed : Filing g r (b.reserved k .allOf) (definitionKey k) _ :=
      filing_definitionKey reserved.filed
    apply Ensures.bind keyed
    rintro key c ⟨first, keyless⟩
    have there : c.Represents g o k := first.advances.represents represents
    apply ensures_schema
    have named : Filing g r c (standaloneName (c.schemas.node k) key)
        fun name _ => g.size ≤ k → Category.allOf ≠ .namedEnum → name = none :=
      filing_standaloneName first.filed fun copy _ =>
        have nameless := nameless_of_copy first.filed there copy
        ⟨nameless.1, nameless.2, keyless copy⟩
    apply Ensures.bind named
    rintro name d ⟨second, nameless⟩
    have listed : ((k, .allOf), b.types.size) ∈ d.built :=
      (first.trans second).retains.built.subset List.mem_cons_self
    have filled := (reserved.trans (first.trans second)).filled (Nat.le_refl _) listed
      (n := { (c.schemas.node k).describe .intersection keyName name with params := .many [] })
      nameless
    apply ensures_fill
    apply Ensures.bind (filing_strip filled.filed shown (filled.advances.represents represents))
    rintro copy e ⟨third, made⟩
    apply Ensures.bind (filing_parts below third.filed made reached (List.Subset.refl _))
    rintro parts f ⟨fourth, _⟩
    have last := third.trans fourth
    have still := last.retains.built.subset listed
    apply ensures_setParams
    refine ensures_pure ⟨(filled.trans last).filled (Nat.le_refl _) still fun copy other => ?_,
      trivial⟩
    exact last.filed.anonymous _ still copy other

theorem level_files : Subbuild.Files g r (level sub) := by
  intro b s keyName filed heads
  cases heads with
  | bool allowed => exact (filing_addType filed).mono fun _ _ h => h.1
  | bare v => exact (filing_addType filed).mono fun _ _ h => h.1
  | @node o k shown represents reached =>
    apply ensures_noteRoot
    have noted : b.Files g r { b with root := some (b.root.getD k) } :=
      filed.aside (Nat.le_refl _) (fun _ _ => rfl) filed.collects
    apply ensures_schema
    have content : b.schemas.node k = g.content o := represents.content filed.copies
    dsimp only
    rw [content]
    split
    · rename_i category only
      have calls : g.Calls category o := shown.calls_iff.mpr (by simp only [Node.slot, only])
      exact (filing_inCategory below noted.filed represents reached calls).mono
        fun _ _ h => noted.trans h.1
    · rename_i several
      exact (filing_combination below noted.filed shown represents reached several).mono
        fun _ _ h => noted.trans h.1

end Levels

theorem levels_files (fuel : Nat) : Subbuild.Files g r (levels fuel) := by
  induction fuel with
  | zero => exact fun _ _ _ _ _ => ensures_throw trivial
  | succ fuel ih => exact level_files ih

end Build

namespace Builder

theorem filed_fresh (closed : g.Closed) (types : TypeGraph) (fileName : Option String) :
    (fresh g types fileName).Filed g r where
  copies := (sound_fresh closed).copies
  tame := ⟨closed, .nil, .nil, nofun, nofun, nofun⟩
  entries := nofun
  collects := nofun
  anonymous := nofun

end Builder

/-- A build with nothing remembered files all that it builds. -/
theorem Build.files_typeOf (closed : g.Closed) (inside : r < g.size) {types : TypeGraph}
    {fileName : Option String} {later : Builder}
    (run : typeOf (.node r) keyName (.fresh g types fileName) = .ok t later) :
    later.Filed g r := by
  have heads : (Builder.fresh g types fileName).Heads g r (.node r) :=
    .node (o := .node r) trivial (.node inside) .refl
  exact ((levels_files _ _ _ keyName (Builder.filed_fresh closed types fileName) heads).ok
    run).filed

end LinkedSchema
