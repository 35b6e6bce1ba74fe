import LinkedSchema.Proofs.Build.Accounts
import LinkedSchema.Proofs.Build.Sifting
/-! Runs of calls that share what was built, and of which some fail. What a failed call leaves
behind is met again just where no type can be made. -/
namespace LinkedSchema

variable {g base : Graph} {old : List (NodeId × NodeId)} {b c : Builder} {t u : TypeId}
  {s : Subschema} {failed : Prop} {keyName : Option String}

/-- The states of a run of calls on the schemas of a graph, some of which fail. A call goes on with
the builder of the one before, or with a new one over the same types and entries. A new builder has
no copies of nodes yet, and may have another root, other names and other definitions. -/
inductive Graph.Session (g : Graph) : Builder → Prop where
  | start (types : TypeGraph) (fileName : Option String) (usedNames : UsedNames)
      (definitions : DefinitionsCache) :
      Session g { schemas := g, types, fileName, usedNames, definitions }
  | anew {b : Builder} (root : Option NodeId) (fileName : Option String) (usedNames : UsedNames)
      (definitions : DefinitionsCache) : Session g b →
      Session g { b with root, fileName, usedNames, definitions, stripped := [], narrowed := [] }
  | returned {b c : Builder} {s : Subschema} {keyName : Option String} {t : TypeId} :
      Session g b → s.Below g.size → Build.typeOf s keyName b = .ok t c → Session g c
  | failed {b c : Builder} {s : Subschema} {keyName : Option String} {e : Fault} :
      Session g b → s.Below g.size → Build.typeOf s keyName b = .error e c → Session g c

namespace Builder

theorem sound_anew (closed : b.schemas.Closed) (stripped : b.stripped = [])
    (narrowed : b.narrowed = [])
    (built : ∀ e ∈ b.built, e.1.1 < b.schemas.size ∧ e.2 < b.types.size)
    (once : (b.built.map (·.1)).Nodup) : b.Sound b.schemas where
  copies := by
    have alone : (fresh b.schemas b.types b.fileName).Sound b.schemas := sound_fresh closed
    rw [stripped, narrowed]
    exact alone.copies
  built := built
  builtOnce := once

/-- What holds of all states of a run of calls: all that is remembered is settled or abandoned. -/
structure Sorted (g base : Graph) (old : List (NodeId × NodeId)) (b : Builder) : Prop where
  extension : base.Extends g old
  sound : b.Sound base
  entries : ∀ e ∈ b.built, (b.recalling old).Settled g e ∨ (b.recalling old).Abandoned g e

namespace Sorted

theorem follows (sorted : b.Sorted g base old) (follows : b.Follows g base old failed c) :
    c.Sorted g base old where
  extension := sorted.extension
  sound := follows.sound
  entries e listed := by
    rcases follows.entries e listed with here | ⟨_, settled | ⟨_, abandoned⟩⟩
    · exact (sorted.entries e here).imp (follows.settled sorted.sound here)
        (follows.abandoned sorted.sound here)
    · exact .inl settled
    · exact .inr abandoned

theorem start (closed : g.Closed) (names : g.NamesTypes) (schemas : b.schemas = g)
    (built : b.built = []) (stripped : b.stripped = []) (narrowed : b.narrowed = []) :
    b.Sorted g g [] where
  extension := ⟨fun _ _ => rfl, Nat.le_refl _, closed, names, nofun⟩
  sound := by
    subst schemas
    refine sound_anew closed stripped narrowed ?_ ?_
    · rw [built]
      exact nofun
    · rw [built]
      exact .nil
  entries := by
    rw [built]
    exact nofun

/-- A new builder knows the unnamed copies of all former ones, in that it does not come by them. -/
theorem anew (sorted : b.Sorted g base old) (root : Option NodeId) (fileName : Option String)
    (usedNames : UsedNames) (definitions : DefinitionsCache) :
    Sorted g b.schemas (b.stripped ++ old)
      { b with root, fileName, usedNames, definitions, stripped := [], narrowed := [] } where
  extension := {
    kept i inside := sorted.extension.node_eq sorted.sound inside
    size := Nat.le_trans sorted.extension.size sorted.sound.copies.size_le
    children i inside s child := sorted.extension.below sorted.sound inside child
    names i inside := sorted.extension.names_below sorted.sound inside
    old e listed := by
      rcases List.mem_append.mp listed with here | there
      · obtain ⟨_, _, above, inside, _⟩ := sorted.sound.copies.stripped e here
        exact ⟨Nat.le_trans sorted.extension.size above, inside⟩
      · obtain ⟨above, inside⟩ := sorted.extension.old e there
        exact ⟨above, Nat.lt_of_lt_of_le inside sorted.sound.copies.size_le⟩ }
  sound := sound_anew
    (b := { b with root, fileName, usedNames, definitions, stripped := [], narrowed := [] })
    sorted.sound.copies.closed rfl rfl sorted.sound.built sorted.sound.builtOnce
  entries := sorted.entries

theorem accounts (sorted : b.Sorted g base old) : (b.recalling old).Accounts g True where
  kept i inside := (sorted.extension.node_eq sorted.sound inside : b.schemas.node i = g.node i)
  entries e listed := (sorted.entries e listed).imp_right fun abandoned => ⟨trivial, abandoned⟩

variable (keyName) in
theorem ensures_typeOf (sorted : b.Sorted g base old) (below : s.Below g.size) :
    Build.Ensures b (Build.typeOf s keyName)
      (fun t later => b.Follows g base old False later ∧
        (later.recalling old).Stands g t (.schema s))
      (fun _ later => b.Follows g base old True later ∧ g.Refuses (.schema s)) := by
  have sifts := Build.levels_sifts sorted.extension (Build.depth b.schemas)
  have outcome := Build.ensures_sub keyName sifts sorted.extension sorted.sound below
  have inside : s.Below base.size := by
    cases s with
    | node i => exact Nat.lt_of_lt_of_le below sorted.extension.size
    | bool allowed => trivial
    | bare v => trivial
  cases run : Build.levels (Build.depth b.schemas) s keyName b with
  | ok t later => exact Build.ensures_of_ok run (outcome.ok run)
  | error e later =>
    have fueled : e ≠ .outOfFuel := by
      rintro rfl
      exact Build.ne_outOfFuel sorted.sound sorted.extension.names inside sorted.sound.depth_le
        later run
    exact Build.ensures_of_error run (outcome.error run fueled)

end Sorted
end Builder

theorem Graph.Session.sorted (closed : g.Closed) (names : g.NamesTypes) (session : g.Session b) :
    ∃ base old, b.Sorted g base old := by
  induction session with
  | start types fileName usedNames definitions => exact ⟨g, [], .start closed names rfl rfl rfl rfl⟩
  | anew root fileName usedNames definitions _ ih =>
    obtain ⟨base, old, sorted⟩ := ih
    exact ⟨_, _, sorted.anew root fileName usedNames definitions⟩
  | returned _ below run ih =>
    obtain ⟨base, old, sorted⟩ := ih
    exact ⟨base, old, sorted.follows ((sorted.ensures_typeOf _ below).ok run).1⟩
  | failed _ below run ih =>
    obtain ⟨base, old, sorted⟩ := ih
    exact ⟨base, old, sorted.follows ((sorted.ensures_typeOf _ below).error run).1⟩

namespace Build

variable {types : TypeGraph} {fileName keyName : Option String}

/-- Where nothing is remembered, a call fails just where no type can be made. -/
theorem refuses_iff_fails (closed : g.Closed) (names : g.NamesTypes) (below : s.Below g.size) :
    g.Refuses (.schema s) ↔
      ∃ e later, typeOf s keyName (.fresh g types fileName) = .error e later := by
  have start : (Builder.fresh g types fileName).Sorted g g [] := .start closed names rfl rfl rfl rfl
  have outcome := start.ensures_typeOf keyName below
  constructor
  · intro refused
    cases run : typeOf s keyName (.fresh g types fileName) with
    | error e later => exact ⟨e, later, rfl⟩
    | ok t later =>
      obtain ⟨follows, stands⟩ := outcome.ok run
      have entries : ∀ e ∈ later.built, (later.recalling []).Settled g e ∨
          (False ∧ (later.recalling []).Abandoned g e) := fun e listed =>
        (follows.entries e listed).elim nofun And.right
      have kept : ∀ i < g.size, later.schemas.node i = g.node i := fun i inside =>
        start.extension.node_eq follows.sound inside
      have accounts : (later.recalling []).Accounts g False := ⟨kept, entries⟩
      exact (stands.spoilt accounts refused).1.elim
  · rintro ⟨e, later, run⟩
    exact (outcome.error run).2

/-- What a call returns after others have failed. If a call with nothing remembered returns, so does
this one, and then all types below the result are filled and it unfolds the same way. If a call with
nothing remembered fails, this one may still return: what it returns leads to a type without
contents, or to an intersection without members, and does not unfold to the translation. -/
theorem typeOf_session (closed : g.Closed) (names : g.NamesTypes) (session : g.Session b)
    (below : s.Below g.size) (types : TypeGraph) (fileName keyName key : Option String) :
    (∀ t alone, typeOf s keyName (.fresh g types fileName) = .ok t alone →
      ∃ u later, typeOf s key b = .ok u later ∧ later.types.Filled u ∧
        ∀ depth, later.types.unfold depth u = alone.types.unfold depth t) ∧
    ∀ e alone, typeOf s keyName (.fresh g types fileName) = .error e alone →
      ∀ u later, typeOf s key b = .ok u later →
        (∃ v, later.types.Reaches u v ∧ later.types.Bare v) ∧
        ∃ depth, later.types.unfold depth u ≠ g.plainTree depth (.schema s) := by
  obtain ⟨base, old, sorted⟩ := session.sorted closed names
  have outcome := sorted.ensures_typeOf key below
  refine ⟨fun t alone run => ?_, fun e alone run u later here => ?_⟩
  · have fine : ¬ g.Refuses (.schema s) := by
      intro refused
      obtain ⟨e, later, fails⟩ := (refuses_iff_fails closed names below).mp refused
      rw [run] at fails
      cases fails
    cases here : typeOf s key b with
    | error e later => exact absurd (outcome.error here).2 fine
    | ok u later =>
      obtain ⟨follows, stands⟩ := outcome.ok here
      obtain ⟨filled, same⟩ := stands.unspoilt (sorted.follows follows).accounts fine
      refine ⟨u, later, rfl, filled, fun depth => ?_⟩
      obtain ⟨continues, alike⟩ := stands_typeOf closed below run
      refine (same depth).trans (Graph.unfold_eq_plainTree (fun _ _ h => ?_) alike depth).symm
      exact Builder.stands_step continues.sound continues.all_complete h
  · have refused : g.Refuses (.schema s) :=
      (refuses_iff_fails closed names below).mpr ⟨e, alone, run⟩
    obtain ⟨follows, stands⟩ := outcome.ok here
    exact (stands.spoilt (sorted.follows follows).accounts refused).2

/-- A record that leads to a node of two types, and then to a reference that was never resolved. -/
def dangling : Graph := ⟨#[
  { title := .str "entry", type := .str "object"
    properties := some [("next", .node 1), ("other", .node 2)] },
  { type := .arr [.str "string", .str "null"], parent := some 0 },
  { ref := .str "#/other", parent := some 0 }]⟩

/-- After a call for the record has failed, a call for the node of two types does as it should, and
another call for the record returns. -/
theorem typeOf_dangling_session : ∃ b, dangling.Session b ∧
    (∃ u later, typeOf (.node 1) none b = .ok u later ∧ later.types.Filled u) ∧
    ∃ u later, typeOf (.node 0) none b = .ok u later ∧ ∃ v, later.types.Reaches u v ∧
      later.types.Bare v := by
  have closed : dangling.Closed := by decide +kernel
  have names : dangling.NamesTypes := by decide +kernel
  have run : (match typeOf (.node 0) none (.fresh dangling .empty none) with
      | .ok _ _ => false
      | .error _ c => succeeds (typeOf (.node 0) none
          { c with root := none, stripped := [], narrowed := [] })) = true := by decide +kernel
  split at run
  · cases run
  · rename_i e c failed
    have session : dangling.Session { c with root := none, stripped := [], narrowed := [] } :=
      .anew none c.fileName c.usedNames c.definitions
        (.failed (.start .empty none [] []) (by decide) failed)
    obtain ⟨u, later, again⟩ := exists_of_succeeds run
    obtain ⟨t, alone, returned⟩ := exists_of_succeeds
      (show succeeds (typeOf (.node 1) none (.fresh dangling .empty none)) = true by decide +kernel)
    obtain ⟨right, _⟩ := typeOf_session closed names session
      (show Subschema.Below dangling.size (.node 1) by decide) .empty none none none
    obtain ⟨_, wrong⟩ := typeOf_session closed names session
      (show Subschema.Below dangling.size (.node 0) by decide) .empty none none none
    obtain ⟨v, last, here, filled, _⟩ := right t alone returned
    obtain ⟨spoilt, _⟩ := wrong e c failed u later again
    exact ⟨_, session, ⟨v, last, here, filled⟩, u, later, again, spoilt⟩

/-- A call for the record fails, and then one that shares what was built returns a type without
contents. -/
theorem typeOf_dangling_twice : ∃ e c t later,
    typeOf (.node 0) none (.fresh dangling .empty none) = .error e c ∧
    renewed (typeOf (.node 0) none) c = .ok t later ∧ ¬ later.types.Filled t := by
  have run : (match typeOf (.node 0) none (.fresh dangling .empty none) with
      | .ok _ _ => false
      | .error _ c =>
        match renewed (typeOf (.node 0) none) c with
        | .ok t later => (later.types.node t).kind.isNone
        | .error _ _ => false) = true := by decide +kernel
  split at run
  · cases run
  · rename_i e c failed
    split at run
    · rename_i t later again
      refine ⟨e, c, t, later, failed, again, fun filled => ?_⟩
      have unfilled : (later.types.node t).kind = none := Option.isNone_iff_eq_none.mp run
      have kind := filled t .refl
      rw [unfilled] at kind
      cases kind
    · cases run

end Build
end LinkedSchema
