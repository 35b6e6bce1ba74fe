import LinkedSchema.Build.TypeOf
import LinkedSchema.Proofs.Types.Form
import LinkedSchema.Proofs.Types.Order
/-! The names that a build gives. A step adds types with names that were free before it, one name
for one type, and when it succeeds it leads to all that it has added. Nothing is assumed of the
schemas, of the copies of nodes, or of how far earlier builds have got. -/
namespace LinkedSchema

variable {b c d : Builder} {t u : TypeId} {name : String} {pending : Option String}
  {results more : List TypeId}

namespace Builder

/-- A type that is remembered for some node. -/
def Known (b : Builder) (t : TypeId) : Prop := ∃ e ∈ b.built, e.2 = t

/-- The later state has what the earlier one has. Types added since have names of their own that
were free, and refer to types added since, or remembered before. -/
structure Adds (b later : Builder) : Prop where
  types : b.types.size ≤ later.types.size
  form : ∀ t < b.types.size, (later.types.node t).form = (b.types.node t).form
  name : ∀ t < b.types.size,
    (later.types.node t).standaloneName = (b.types.node t).standaloneName
  usedNames : b.usedNames ⊆ later.usedNames
  built : b.built ⊆ later.built
  known : ∀ t, later.Known t → b.Known t ∨ b.types.size ≤ t
  fresh : ∀ t name, b.types.size ≤ t → (later.types.node t).standaloneName = some name →
    name ∈ later.usedNames ∧ name ∉ b.usedNames
  apart : ∀ t u name, b.types.size ≤ t → b.types.size ≤ u →
    (later.types.node t).standaloneName = some name →
    (later.types.node u).standaloneName = some name → t = u
  references : ∀ t, b.types.size ≤ t → ∀ u ∈ (later.types.node t).references,
    b.Known u ∨ b.types.size ≤ u

end Builder

/-- A type that refers to nothing may get other contents, and all lead where they led. -/
theorem TypeGraph.Reaches.set {g : TypeGraph} {n : TypeNode} {v : TypeId}
    (bare : (g.node t).references = []) (reached : g.Reaches u v) : (g.set t n).Reaches u v := by
  refine Relation.ReflTransGen.mono (fun v w edge => ?_) _ _ reached
  have edge : w ∈ (g.node v).references := edge
  have differs : t ≠ v := by
    rintro rfl
    rw [bare] at edge
    cases edge
  show w ∈ ((g.set t n).node v).references
  rwa [TypeGraph.node_set_ne differs]

namespace Builder

/-- States that are the same in names, and in what types are but for what they say of themselves. -/
structure Shares (b later : Builder) : Prop where
  size : later.types.size = b.types.size
  form : ∀ t, (later.types.node t).form = (b.types.node t).form
  name : ∀ t, (later.types.node t).standaloneName = (b.types.node t).standaloneName
  built : later.built = b.built
  usedNames : later.usedNames = b.usedNames

theorem Shares.of_same (types : c.types = b.types) (built : c.built = b.built)
    (usedNames : c.usedNames = b.usedNames) : b.Shares c where
  size := congrArg TypeGraph.size types
  form _ := by rw [types]
  name _ := by rw [types]
  built := built
  usedNames := usedNames

theorem Shares.of_set {n : TypeNode} (form : n.form = (b.types.node t).form)
    (name : n.standaloneName = (b.types.node t).standaloneName) :
    b.Shares { b with types := b.types.set t n } := by
  have same : ∀ u, ((b.types.set t n).node u).form = (b.types.node u).form ∧
      ((b.types.set t n).node u).standaloneName = (b.types.node u).standaloneName := by
    intro u
    by_cases apart : t = u
    · subst apart
      by_cases inside : t < b.types.size
      · rw [TypeGraph.node_set_self inside]
        exact ⟨form, name⟩
      · have beyond : (b.types.set t n).size ≤ t := by simpa using inside
        rw [TypeGraph.node_of_le beyond, TypeGraph.node_of_le (Nat.le_of_not_lt inside)]
        exact ⟨rfl, rfl⟩
    · rw [TypeGraph.node_set_ne apart]
      exact ⟨rfl, rfl⟩
  exact ⟨TypeGraph.size_set _ _ _, fun u => (same u).1, fun u => (same u).2, rfl, rfl⟩

/-- While the types added since are without names and references, there is little to keep. -/
theorem Adds.of_blank (types : b.types.size ≤ c.types.size)
    (form : ∀ t < b.types.size, (c.types.node t).form = (b.types.node t).form)
    (name : ∀ t < b.types.size,
      (c.types.node t).standaloneName = (b.types.node t).standaloneName)
    (usedNames : b.usedNames ⊆ c.usedNames) (built : b.built ⊆ c.built)
    (known : ∀ t, c.Known t → b.Known t ∨ b.types.size ≤ t)
    (blank : ∀ t, b.types.size ≤ t →
      (c.types.node t).standaloneName = none ∧ (c.types.node t).references = []) : b.Adds c where
  types := types
  form := form
  name := name
  usedNames := usedNames
  built := built
  known := known
  fresh t name new named := by
    rw [(blank t new).1] at named
    cases named
  apart t u name new _ named := by
    rw [(blank t new).1] at named
    cases named
  references t new u refers := by
    rw [(blank t new).2] at refers
    cases refers

theorem blank_beyond (beyond : b.types.size ≤ t) :
    (b.types.node t).standaloneName = none ∧ (b.types.node t).references = [] := by
  rw [TypeGraph.node_of_le beyond]
  exact ⟨rfl, rfl⟩

theorem Shares.adds (shares : b.Shares c) : b.Adds c := by
  refine .of_blank (Nat.le_of_eq shares.size.symm) (fun t _ => shares.form t)
    (fun t _ => shares.name t) (shares.usedNames ▸ List.Subset.refl _)
    (shares.built ▸ List.Subset.refl _) ?_ ?_
  · rintro t ⟨e, remembered, rfl⟩
    exact .inl ⟨e, shares.built ▸ remembered, rfl⟩
  · intro t beyond
    obtain ⟨unnamed, bare⟩ := blank_beyond beyond
    exact ⟨(shares.name t).trans unnamed, (congrArg Form.references (shares.form t)).trans bare⟩

theorem Adds.known_or_new (adds : b.Adds c) (h : c.Known t ∨ c.types.size ≤ t) :
    b.Known t ∨ b.types.size ≤ t := by
  rcases h with known | new
  · exact adds.known t known
  · exact .inr (Nat.le_trans adds.types new)

theorem Adds.trans (first : b.Adds c) (next : c.Adds d) : b.Adds d where
  types := Nat.le_trans first.types next.types
  form t below := (next.form t (Nat.lt_of_lt_of_le below first.types)).trans (first.form t below)
  name t below := (next.name t (Nat.lt_of_lt_of_le below first.types)).trans (first.name t below)
  usedNames := List.Subset.trans first.usedNames next.usedNames
  built := List.Subset.trans first.built next.built
  known t known := first.known_or_new (next.known t known)
  fresh t name new named := by
    rcases Nat.lt_or_ge t c.types.size with below | beyond
    · rw [next.name t below] at named
      obtain ⟨used, free⟩ := first.fresh t name new named
      exact ⟨next.usedNames used, free⟩
    · obtain ⟨used, free⟩ := next.fresh t name beyond named
      exact ⟨used, fun taken => free (first.usedNames taken)⟩
  apart t u name newT newU namedT namedU := by
    -- a name given by the later step was not in use when the earlier one ended
    have clash : ∀ v w, b.types.size ≤ v → v < c.types.size → c.types.size ≤ w →
        (d.types.node v).standaloneName = some name →
        (d.types.node w).standaloneName = some name → False := by
      intro v w new below beyond namedV namedW
      rw [next.name v below] at namedV
      exact (next.fresh w name beyond namedW).2 (first.fresh v name new namedV).1
    rcases Nat.lt_or_ge t c.types.size with belowT | beyondT
    · rcases Nat.lt_or_ge u c.types.size with belowU | beyondU
      · rw [next.name t belowT] at namedT
        rw [next.name u belowU] at namedU
        exact first.apart t u name newT newU namedT namedU
      · exact (clash t u newT belowT beyondU namedT namedU).elim
    · rcases Nat.lt_or_ge u c.types.size with belowU | beyondU
      · exact (clash u t newU belowU beyondT namedU namedT).elim
      · exact next.apart t u name beyondT beyondU namedT namedU
  references t new u refers := by
    rcases Nat.lt_or_ge t c.types.size with below | beyond
    · have kept := congrArg Form.references (next.form t below)
      rw [TypeNode.references_form, TypeNode.references_form] at kept
      rw [kept] at refers
      exact first.references t new u refers
    · exact first.known_or_new (next.references t beyond u refers)

/-- Types keep what they refer to, so they lead where they led. -/
theorem Adds.references_eq (adds : b.Adds c) (below : t < b.types.size) :
    (c.types.node t).references = (b.types.node t).references :=
  congrArg Form.references (adds.form t below)

/-- A type that has no contents yet gets none from the steps that come after. -/
theorem Adds.keeps_blank (adds : b.Adds c) (inside : t < b.types.size)
    (blank : b.types.node t = {}) :
    (c.types.node t).references = [] ∧ (c.types.node t).standaloneName = none := by
  rw [adds.references_eq inside, adds.name t inside, blank]
  exact ⟨rfl, rfl⟩

theorem Adds.reaches (adds : b.Adds c) (reached : b.types.Reaches t u) : c.types.Reaches t u := by
  refine Relation.ReflTransGen.mono (fun v w refers => ?_) _ _ reached
  have below : v < b.types.size := by
    by_contra beyond
    have edge : w ∈ (b.types.node v).references := refers
    rw [TypeGraph.node_of_le (Nat.le_of_not_lt beyond)] at edge
    cases edge
  show w ∈ (c.types.node v).references
  rw [adds.references_eq below]
  exact refers

/-- What a successful step adds: all types added since are found below its results, and all names
taken since belong to these types, but for a name that is still to be given. -/
structure Yields (b : Builder) (results : List TypeId) (pending : Option String)
    (later : Builder) : Prop extends Adds b later where
  given : ∀ t ∈ results, b.Known t ∨ b.types.size ≤ t
  reached : ∀ u, b.types.size ≤ u → u < later.types.size →
    ∃ t ∈ results, later.types.Reaches t u
  carried : ∀ name ∈ later.usedNames, name ∈ b.usedNames ∨ name ∈ pending ∨
    ∃ u, b.types.size ≤ u ∧ (later.types.node u).standaloneName = some name
  free : ∀ name ∈ pending, name ∈ later.usedNames ∧ name ∉ b.usedNames ∧
    ∀ u, b.types.size ≤ u → (later.types.node u).standaloneName ≠ some name

theorem Shares.yields (shares : b.Shares c) : b.Yields [] none c where
  toAdds := shares.adds
  given := nofun
  reached _ new below := absurd (shares.size ▸ below) (Nat.not_lt.mpr new)
  carried _ used := .inl (shares.usedNames ▸ used)
  free := nofun

/-- Nothing new is needed for a type that is remembered. -/
theorem Yields.found (known : b.Known t) : b.Yields [t] none b where
  toAdds := (Shares.of_same rfl rfl rfl).adds
  given _ listed := .inl (List.mem_singleton.mp listed ▸ known)
  reached _ new below := absurd below (Nat.not_lt.mpr new)
  carried _ used := .inl used
  free := nofun

/-- Steps one after the other, of which one at most takes a name that is still to be given. -/
theorem Yields.trans {last : Option String} (first : b.Yields results pending c)
    (next : c.Yields more last d) (once : pending = none ∨ last = none) :
    b.Yields (results ++ more) (pending.or last) d where
  toAdds := first.toAdds.trans next.toAdds
  given t listed := by
    rcases List.mem_append.mp listed with listed | listed
    · exact first.given t listed
    · exact first.known_or_new (next.given t listed)
  reached u new below := by
    rcases Nat.lt_or_ge u c.types.size with old | beyond
    · obtain ⟨t, listed, reached⟩ := first.reached u new old
      exact ⟨t, List.mem_append_left _ listed, next.reaches reached⟩
    · obtain ⟨t, listed, reached⟩ := next.reached u beyond below
      exact ⟨t, List.mem_append_right _ listed, reached⟩
  carried name used := by
    rcases next.carried name used with old | pends | ⟨u, new, named⟩
    · rcases first.carried name old with older | pends | ⟨u, new, named⟩
      · exact .inl older
      · exact .inr (.inl (by simp [Option.mem_def.mp pends]))
      · refine .inr (.inr ⟨u, new, ?_⟩)
        by_cases below : u < c.types.size
        · rwa [next.name u below]
        · rw [(blank_beyond (Nat.le_of_not_lt below)).1] at named
          cases named
    · rcases once with none | none
      · exact .inr (.inl (by simpa [none] using pends))
      · simp [none] at pends
    · exact .inr (.inr ⟨u, Nat.le_trans first.types new, named⟩)
  free name pends := by
    have source : name ∈ pending ∨ name ∈ last := by
      rcases once with none | none
      · exact .inr (by simpa [none] using pends)
      · exact .inl (by simpa [none] using pends)
    rcases source with pends | pends
    · obtain ⟨used, unused, uncarried⟩ := first.free name pends
      refine ⟨next.usedNames used, unused, fun u new named => ?_⟩
      rcases Nat.lt_or_ge u c.types.size with below | beyond
      · rw [next.name u below] at named
        exact uncarried u new named
      · exact (next.fresh u name beyond named).2 used
    · obtain ⟨used, unused, uncarried⟩ := next.free name pends
      refine ⟨used, fun taken => unused (first.usedNames taken), fun u new named => ?_⟩
      rcases Nat.lt_or_ge u c.types.size with below | beyond
      · rw [next.name u below] at named
        exact unused (first.fresh u name new named).1
      · exact uncarried u beyond named

theorem Yields.andThen (first : b.Yields results pending c) (next : c.Yields more none d) :
    b.Yields (results ++ more) pending d := by
  have both := first.trans next (.inr rfl)
  rwa [Option.or_none] at both

theorem Yields.before (first : b.Yields results none c) (next : c.Yields more pending d) :
    b.Yields (results ++ more) pending d := first.trans next (.inl rfl)

/-- A type without a name that refers to nothing. -/
theorem Yields.push {n : TypeNode} (types : c.types = b.types.push n)
    (usedNames : c.usedNames = b.usedNames) (built : b.built ⊆ c.built)
    (known : ∀ t, c.Known t → b.Known t ∨ t = b.types.size) (unnamed : n.standaloneName = none)
    (bare : n.references = []) : b.Yields [b.types.size] none c := by
  have size : c.types.size = b.types.size + 1 := by rw [types, TypeGraph.size_push]
  have old : ∀ t < b.types.size, c.types.node t = b.types.node t := fun t below => by
    rw [types, TypeGraph.node_push_of_lt below]
  constructor
  · refine .of_blank (by omega) (fun t below => congrArg TypeNode.form (old t below))
      (fun t below => congrArg TypeNode.standaloneName (old t below))
      (usedNames ▸ List.Subset.refl _) built ?_ ?_
    · exact fun t h => (known t h).imp_right fun same => Nat.le_of_eq same.symm
    · intro t new
      rcases Nat.lt_or_eq_of_le new with beyond | rfl
      · exact blank_beyond (size ▸ beyond)
      · rw [types, TypeGraph.node_push_self]
        exact ⟨unnamed, bare⟩
  · exact fun t listed => .inr (Nat.le_of_eq (List.mem_singleton.mp listed).symm)
  · intro u beyond below
    have same : u = b.types.size := by omega
    exact ⟨u, List.mem_singleton.mpr same, .refl⟩
  · exact fun name used => .inl (usedNames ▸ used)
  · exact nofun

/-- A free name that is taken but not yet given. -/
theorem Yields.take (free : name ∉ b.usedNames) :
    b.Yields [] (some name) { b with usedNames := name :: b.usedNames } where
  toAdds := .of_blank (Nat.le_refl _) (fun _ _ => rfl) (fun _ _ => rfl)
    (List.subset_cons_self _ _) (List.Subset.refl _) (fun _ known => .inl known)
    fun _ => blank_beyond
  given := nofun
  reached _ new below := absurd below (Nat.not_lt.mpr new)
  carried other used := by
    rcases List.mem_cons.mp used with rfl | used
    · exact .inr (.inl rfl)
    · exact .inl used
  free other pending := by
    cases pending
    refine ⟨List.mem_cons_self, free, fun u beyond named => ?_⟩
    rw [(blank_beyond beyond).1] at named
    cases named

/-- A type added before may get other contents, if they refer to what new types may refer to and
the name is one that no other new type has. -/
theorem Adds.fill {n : TypeNode} (h : b.Adds c) (new : b.types.size ≤ t)
    (inside : t < c.types.size)
    (refers : ∀ u ∈ n.references, b.Known u ∨ b.types.size ≤ u)
    (own : ∀ name, n.standaloneName = some name → name ∈ c.usedNames ∧ name ∉ b.usedNames ∧
      ∀ u, b.types.size ≤ u → (c.types.node u).standaloneName = some name → u = t) :
    b.Adds { c with types := c.types.set t n } := by
  have self : (c.types.set t n).node t = n := TypeGraph.node_set_self inside n
  have other : ∀ u, t ≠ u → (c.types.set t n).node u = c.types.node u :=
    fun u differs => TypeGraph.node_set_ne differs n
  have old : ∀ u < b.types.size, (c.types.set t n).node u = c.types.node u :=
    fun u below => other u (Nat.ne_of_gt (Nat.lt_of_lt_of_le below new))
  constructor
  · exact Nat.le_trans h.types (Nat.le_of_eq (TypeGraph.size_set _ _ _).symm)
  · exact fun u below => (congrArg TypeNode.form (old u below)).trans (h.form u below)
  · exact fun u below => (congrArg TypeNode.standaloneName (old u below)).trans (h.name u below)
  · exact h.usedNames
  · exact h.built
  · exact h.known
  · intro u name beyond named
    by_cases same : t = u
    · subst same
      rw [self] at named
      exact ⟨(own name named).1, (own name named).2.1⟩
    · rw [other u same] at named
      exact h.fresh u name beyond named
  · intro u v name beyondU beyondV namedU namedV
    by_cases sameU : t = u
    · subst sameU
      by_cases sameV : t = v
      · exact sameV
      · rw [self] at namedU
        rw [other v sameV] at namedV
        exact ((own name namedU).2.2 v beyondV namedV).symm
    · rw [other u sameU] at namedU
      by_cases sameV : t = v
      · subst sameV
        rw [self] at namedV
        exact (own name namedV).2.2 u beyondU namedU
      · rw [other v sameV] at namedV
        exact h.apart u v name beyondU beyondV namedU namedV
  · intro u beyond v edge
    by_cases same : t = u
    · subst same
      rw [self] at edge
      exact refers v edge
    · rw [other u same] at edge
      exact h.references u beyond v edge

/-- A type added before gets the contents that it lacked: the name that is pending, unless it has
one, and references to what was made in between. -/
theorem Yields.fill {n : TypeNode} (h : b.Yields (t :: results) pending c)
    (new : b.types.size ≤ t) (inside : t < c.types.size)
    (bare : (c.types.node t).references = []) (refers : n.references = results)
    (named : n.standaloneName = (c.types.node t).standaloneName.or pending)
    (once : (c.types.node t).standaloneName = none ∨ pending = none) :
    b.Yields [t] none { c with types := c.types.set t n } := by
  have self : (c.types.set t n).node t = n := TypeGraph.node_set_self inside n
  have other : ∀ u, t ≠ u → (c.types.set t n).node u = c.types.node u :=
    fun u differs => TypeGraph.node_set_ne differs n
  have source : ∀ name, n.standaloneName = some name ↔
      (c.types.node t).standaloneName = some name ∨ pending = some name := by
    intro name
    rw [named]
    rcases once with none | none
    · simp [none]
    · simp [none]
  constructor
  · refine h.toAdds.fill new inside ?_ ?_
    · exact fun u edge => h.given u (List.mem_cons_of_mem _ (refers ▸ edge))
    · intro name own
      rcases (source name).mp own with old | pending
      · obtain ⟨used, free⟩ := h.fresh t name new old
        exact ⟨used, free, fun u beyond named => h.apart u t name beyond new named old⟩
      · obtain ⟨used, free, uncarried⟩ := h.free name pending
        exact ⟨used, free, fun u beyond named => absurd named (uncarried u beyond)⟩
  · exact fun u listed => .inr (List.mem_singleton.mp listed ▸ new)
  · intro u beyond below
    rw [TypeGraph.size_set] at below
    obtain ⟨r, listed, reached⟩ := h.reached u beyond below
    refine ⟨t, List.mem_singleton_self t, ?_⟩
    rcases List.mem_cons.mp listed with rfl | listed
    · exact reached.set bare
    · have edge : (c.types.set t n).Refers t r := by
        show r ∈ ((c.types.set t n).node t).references
        rw [self, refers]
        exact listed
      exact .head edge (reached.set bare)
  · intro name used
    rcases h.carried name used with old | pending | ⟨u, beyond, carried⟩
    · exact .inl old
    · refine .inr (.inr ⟨t, new, ?_⟩)
      rw [self]
      exact (source name).mpr (.inr pending)
    · refine .inr (.inr ⟨u, beyond, ?_⟩)
      by_cases same : t = u
      · subst same
        rw [self]
        exact (source name).mpr (.inl carried)
      · rwa [other u same]
  · exact nofun

end Builder
end LinkedSchema
