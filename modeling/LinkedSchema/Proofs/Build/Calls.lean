import LinkedSchema.Proofs.Build.Naming
import LinkedSchema.Proofs.Results
/-! Runs of calls that share what was built and the names in use, and the names that they give. -/
namespace LinkedSchema

variable {b c d : Builder} {made more : List TypeId} {fuel : Nat} {s : Subschema} {t u : TypeId}
  {keyName : Option String} {name : String}

namespace Builder

/-- Calls of builders, one after the other, with the types that they returned. A call may fail at
any point, and between two calls all may change but the types, what is remembered and the names in
use: the schemas, the copies of nodes, the root, the definitions. -/
inductive Calls (b : Builder) : List TypeId → Builder → Prop where
  | none : Calls b [] b
  | returned {made : List TypeId} {c d last : Builder} {fuel : Nat} {s : Subschema}
      {keyName : Option String} {t : TypeId} : Calls b made c → c.Shares d →
      Build.levels fuel s keyName d = .ok t last → Calls b (t :: made) last
  | failed {made : List TypeId} {c d last : Builder} {fuel : Nat} {s : Subschema}
      {keyName : Option String} {e : Fault} : Calls b made c → c.Shares d →
      Build.levels fuel s keyName d = .error e last → Calls b made last

theorem Calls.adds (calls : b.Calls made c) : b.Adds c := by
  induction calls with
  | none => exact (Shares.of_same rfl rfl rfl).adds
  | returned _ shares run before =>
    exact (before.trans shares.adds).trans ((Build.levels_tidy _ _ _ _).ok run).toAdds
  | failed _ shares run before =>
    exact (before.trans shares.adds).trans ((Build.levels_tidy _ _ _ _).error run)

/-- What a call returned is still what it was when later ones have ended. -/
theorem Calls.returned_new (calls : b.Calls made c) : ∀ t ∈ made, b.Known t ∨ b.types.size ≤ t := by
  induction calls with
  | none => exact nofun
  | returned before shares run ih =>
    have last := ((Build.levels_tidy _ _ _ _).ok run).given _ (List.mem_singleton_self _)
    intro t listed
    rcases List.mem_cons.mp listed with rfl | listed
    · exact before.adds.known_or_new (shares.adds.known_or_new last)
    · exact ih t listed
  | failed _ _ _ ih => exact ih

/-- A type that is remembered, or found below one that was returned. -/
def Lists (c : Builder) (made : List TypeId) (t : TypeId) : Prop :=
  c.Known t ∨ ∃ r ∈ made, c.types.Reaches r t

theorem Adds.reaches_new (adds : b.Adds c) (empty : b.built = []) (new : b.types.size ≤ t)
    (reached : c.types.Reaches t u) : b.types.size ≤ u := by
  induction reached with
  | refl => exact new
  | tail _ edge ih =>
    rcases adds.references _ ih _ edge with ⟨e, remembered, _⟩ | new
    · rw [empty] at remembered
      cases remembered
    · exact new

theorem Calls.lists_new (calls : b.Calls made c) (empty : b.built = []) (lists : c.Lists made t) :
    b.types.size ≤ t := by
  have unknown : ∀ u, ¬ b.Known u := by
    rintro u ⟨e, remembered, _⟩
    rw [empty] at remembered
    cases remembered
  rcases lists with known | ⟨r, listed, reached⟩
  · exact (calls.adds.known t known).resolve_left (unknown t)
  · have new := (calls.returned_new r listed).resolve_left (unknown r)
    exact calls.adds.reaches_new empty new reached

end Builder

namespace Build

/-- Over a whole run of calls that begins with nothing remembered, names in use stay in use, and all
types that are remembered or below what was returned have names of their own, which were free before
the run. If no names were in use, the ones in use after a first call that returns are the names of
the types below what it returned, each of one type. -/
theorem calls_names (empty : b.built = []) (calls : b.Calls made c) :
    (∀ more d, c.Calls more d → c.usedNames ⊆ d.usedNames) ∧
    (∀ t u name, c.Lists made t → c.Lists made u → (c.types.node t).standaloneName = some name →
      (c.types.node u).standaloneName = some name → t = u) ∧
    (∀ t name, c.Lists made t → (c.types.node t).standaloneName = some name →
      name ∈ c.usedNames ∧ name ∉ b.usedNames) ∧
    (b.usedNames = [] → ∀ fuel s keyName t d, levels fuel s keyName b = .ok t d →
      (∀ u name, d.types.Reaches t u → (d.types.node u).standaloneName = some name →
        name ∈ d.usedNames) ∧
      ∀ name ∈ d.usedNames, ∃! u, d.types.Reaches t u ∧
        (d.types.node u).standaloneName = some name) := by
  have adds := calls.adds
  refine ⟨fun more d next => next.adds.usedNames, ?_, ?_, ?_⟩
  · intro t u name listsT listsU
    exact adds.apart t u name (calls.lists_new empty listsT) (calls.lists_new empty listsU)
  · intro t name lists
    exact adds.fresh t name (calls.lists_new empty lists)
  · intro noNames fuel s keyName t d run
    have made := (levels_tidy fuel b s keyName).ok run
    have first : b.Calls [t] d := .returned .none (.of_same rfl rfl rfl) run
    have new : ∀ u, d.types.Reaches t u → b.types.size ≤ u := fun u reached =>
      first.lists_new empty (.inr ⟨t, List.mem_singleton_self t, reached⟩)
    refine ⟨fun u name reached named => (made.fresh u name (new u reached) named).1, ?_⟩
    intro name used
    rcases made.carried name used with old | pending | ⟨u, beyond, named⟩
    · rw [noNames] at old
      cases old
    · cases pending
    · have below : u < d.types.size := by
        by_contra outside
        rw [(Builder.blank_beyond (Nat.le_of_not_lt outside)).1] at named
        cases named
      obtain ⟨r, listed, reached⟩ := made.reached u beyond below
      rw [List.mem_singleton.mp listed] at reached
      refine ⟨u, ⟨reached, named⟩, ?_⟩
      rintro v ⟨reachedV, namedV⟩
      exact made.apart v u name (new v reachedV) beyond namedV named

/-- Records of one title that lead to one another, one of them in two categories, and a reference
that was never resolved. -/
def namesakes : Builder :=
  { schemas := ⟨#[
    { title := .str "pair", type := .str "object"
      properties := some [("left", .node 1), ("right", .node 2)] },
    { title := .str "pair", type := .str "object", properties := some [("up", .node 0)] },
    { title := .str "pair", type := .arr [.str "string", .str "null"]
      anyOf := some [.node 1, .bool true] },
    { title := .str "pair", ref := .str "#/pair", properties := some [("up", .node 0)] }]⟩ }

/-- A call that fails on the reference, though not at once, and one that returns. -/
theorem calls_namesakes : ∃ t c, namesakes.Calls [t] c ∧
    (∀ u v name, c.Lists [t] u → c.Lists [t] v → (c.types.node u).standaloneName = some name →
      (c.types.node v).standaloneName = some name → u = v) ∧
    ∀ u name, c.Lists [t] u → (c.types.node u).standaloneName = some name →
      name ∈ c.usedNames ∧ name ∉ namesakes.usedNames := by
  have run : (match levels 9 (.node 3) none namesakes with
      | .ok _ _ => false
      | .error _ c => succeeds (levels 9 (.node 0) none c)) = true := by decide +kernel
  split at run
  · cases run
  · rename_i e c failed
    obtain ⟨t, d, returned⟩ := exists_of_succeeds run
    have calls : namesakes.Calls [t] d :=
      .returned (.failed .none (.of_same rfl rfl rfl) failed) (.of_same rfl rfl rfl) returned
    obtain ⟨_, apart, fresh, _⟩ := calls_names rfl calls
    exact ⟨t, d, calls, apart, fresh⟩

end Build
end LinkedSchema
