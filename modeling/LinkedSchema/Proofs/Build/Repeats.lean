import LinkedSchema.Proofs.Build.Agreement
import LinkedSchema.Proofs.Build.Reuse
import Mathlib.Data.List.Nodup
/-! Calls that were made before, made again. Several builders may share types, entries, names and
definitions; what any of them returns for a node that one of them was asked for is what was returned
then. -/
namespace LinkedSchema

variable {g : Graph} {b c : Builder} {i : NodeId} {t : TypeId} {keyName : Option String}
  {s : Subschema} {log : List Event}

/-- What each of the builders that share the rest has to itself. -/
structure Builder.Own where
  fileName : Option String := none
  root : Option NodeId := none
  stripped : List (NodeId × NodeId) := []
  narrowed : List ((NodeId × Json) × NodeId) := []

namespace Builder

def own (b : Builder) : Own :=
  { fileName := b.fileName, root := b.root, stripped := b.stripped, narrowed := b.narrowed }

/-- The state in which another builder goes on. -/
def resume (b : Builder) (own : Own) : Builder :=
  { b with
    fileName := own.fileName, root := own.root, stripped := own.stripped, narrowed := own.narrowed }

end Builder

namespace Build

/-- The log that a call goes on with, made longer by the call. -/
def recorded (s : Subschema) (keyName : Option String) (b : Builder) (log : List Event) :
    List Event :=
  match (Logged.levels (depth b.schemas) s keyName).run log b with
  | .ok (_, log) _ => log
  | .error _ _ => log

theorem recorded_of_ok (run : typeOf s keyName b = .ok t c) (log : List Event) :
    (Logged.levels (depth b.schemas) s keyName).run log b =
      .ok (t, recorded s keyName b log) c := by
  obtain ⟨more, logged⟩ := (Logged.erases_levels _ s keyName).ok run log
  unfold recorded
  rw [logged]

end Build

/-- The states of calls that return, of any number of builders on the schemas of a graph. Each call
goes on with the state of the one before and with what its builder has to itself. The builders are
listed with what they have, and the log has all calls for nodes, the ones inside of others, too. -/
inductive Graph.Succession (g : Graph) : Builder → List Builder.Own → List Event → Prop where
  | start (types : TypeGraph) (usedNames : UsedNames) (definitions : DefinitionsCache) :
      Succession g { schemas := g, types, usedNames, definitions } [] []
  | joined {b : Builder} {owns : List Builder.Own} {log : List Event} (fileName : Option String)
      (root : Option NodeId) : Succession g b owns log →
      Succession g b ({ fileName, root } :: owns) log
  | returned {b c : Builder} {owns : List Builder.Own} {log : List Event} {k : Nat}
      {own : Builder.Own} {s : Subschema} {keyName : Option String} {t : TypeId} :
      Succession g b owns log → owns[k]? = some own → s.Below b.schemas.size →
      Build.typeOf s keyName (b.resume own) = .ok t c →
      Succession g c (owns.set k c.own) (Build.recorded s keyName (b.resume own) log)

namespace Graph.Succession

/-- A call that returns retains what there was and leaves tables and log in order. -/
theorem keeps_call {own : Builder.Own} (going : (b.resume own).Tame) (bears : b.Bears log)
    (below : s.Below b.schemas.size)
    (run : Build.typeOf s keyName (b.resume own) = .ok t c) :
    b.Retains c ∧ c.Tame ∧ c.Bears (Build.recorded s keyName (b.resume own) log) := by
  have kept := Logged.keeping_levels (Build.depth (b.resume own).schemas) (b.resume own) s keyName
    below log going ⟨bears.stand, bears.logged⟩
  obtain ⟨retains, after, bears, _⟩ := kept.ok (Build.recorded_of_ok run log)
  exact ⟨⟨retains.size, retains.node, retains.built⟩, after, bears⟩

/-- Whichever builder goes on, it finds the tables in order. -/
theorem tame {owns : List Builder.Own} (closed : g.Closed) (succession : g.Succession b owns log) :
    (∀ own ∈ {} :: owns, (b.resume own).Tame) ∧ b.Bears log := by
  induction succession with
  | start types usedNames definitions =>
    refine ⟨fun own listed => ?_, nofun, nofun⟩
    cases List.mem_singleton.mp listed
    exact ⟨closed, .nil, .nil, nofun, nofun, nofun⟩
  | joined fileName root _ ih =>
    obtain ⟨tame, bears⟩ := ih
    refine ⟨fun own listed => ?_, bears⟩
    rcases List.mem_cons.mp listed with rfl | listed
    · exact tame _ List.mem_cons_self
    · rcases List.mem_cons.mp listed with rfl | listed
      · exact { tame {} List.mem_cons_self with stripped := nofun, narrowed := nofun }
      · exact tame own (List.mem_cons_of_mem _ listed)
  | @returned b c owns log k own s keyName t _ found below run ih =>
    obtain ⟨tame, bears⟩ := ih
    have going := tame own (List.mem_cons_of_mem _ (List.mem_of_getElem? found))
    obtain ⟨retains, after, bears⟩ := keeps_call going bears below run
    refine ⟨fun other listed => ?_, bears⟩
    rcases List.mem_cons.mp listed with rfl | listed
    · exact { after with stripped := nofun, narrowed := nofun }
    · rcases List.mem_or_eq_of_mem_set listed with old | rfl
      · have before := tame other (List.mem_cons_of_mem _ old)
        exact { after with
          stripped := fun e here => Nat.lt_of_lt_of_le (before.stripped e here) retains.size
          narrowed := fun e here => Nat.lt_of_lt_of_le (before.narrowed e here) retains.size }
      · exact after

end Graph.Succession

namespace Build

theorem renewed_ok {α : Type} {step : Build α} {a : α}
    (run : step { b with root := none, stripped := [], narrowed := [] } = .ok a c) :
    renewed step b = .ok a { c with
      root := b.root, stripped := b.stripped, narrowed := b.narrowed } := by
  unfold renewed inside
  rw [run]

theorem ensures_found {sub : Subbuild} {category : Category} {bad : Fault → Builder → Prop}
    (found : b.built.lookup (i, category) = some t) :
    Ensures b (inCategory sub i category keyName) (fun u later => u = t ∧ later = b) bad := by
  unfold inCategory
  apply ensures_built
  rw [found]
  exact ensures_pure ⟨rfl, rfl⟩

theorem ensures_combined_found {sub : Subbuild} {categories : List Category}
    {bad : Fault → Builder → Prop} (found : b.built.lookup (i, .allOf) = some t) :
    Ensures b (combination sub i categories keyName) (fun u later => u = t ∧ later = b) bad := by
  unfold combination
  apply ensures_built
  rw [found]
  exact ensures_pure ⟨rfl, rfl⟩

/-- One level finds the type of a node that is remembered under its slot. All that changes is the
root, if there was none. -/
theorem level_remembered (sub : Subbuild) (once : (b.built.map (·.1)).Nodup)
    (entry : ((i, (b.schemas.node i).slot), t) ∈ b.built) (keyName : Option String) :
    level sub (.node i) keyName b = .ok t { b with root := some (b.root.getD i) } := by
  have found := lookup_eq_of_mem once entry
  have outcome : Ensures b (level sub (.node i) keyName)
      (fun u later => u = t ∧ later = { b with root := some (b.root.getD i) })
      fun _ _ => False := by
    apply ensures_noteRoot
    apply ensures_schema
    split
    · rename_i category only
      simp only [Node.slot, only] at found
      exact ensures_found found
    · rename_i several
      rw [Node.slot_of_several several] at found
      exact ensures_combined_found found
  obtain ⟨_, _, run, rfl, rfl⟩ := outcome.exists_ok
  exact run

/-- A call for a node whose type is remembered finds it. -/
theorem typeOf_remembered (once : (b.built.map (·.1)).Nodup)
    (entry : ((i, (b.schemas.node i).slot), t) ∈ b.built) (keyName : Option String) :
    typeOf (.node i) keyName b = .ok t { b with root := some (b.root.getD i) } :=
  level_remembered _ once entry keyName

/-- After any calls that returned, a call for a node that was asked for before returns the type that
was returned then, whatever key it is asked for with and whichever builder is asked, an old one or a
new one. It leaves all as it is, but for the root of a builder that had none. Every type that was
found or made for a node in a category is the one that is remembered for them, and for nothing else;
further calls add to what is remembered. -/
theorem typeOf_again {owns : List Builder.Own} (closed : g.Closed)
    (succession : g.Succession b owns log) :
    (∀ i t, .returned i t ∈ log → ∀ keyName,
      (∀ own, typeOf (.node i) keyName (b.resume own) =
        .ok t (b.resume { own with root := some (own.root.getD i) })) ∧
      renewed (typeOf (.node i) keyName) b = .ok t b) ∧
    (∀ i category t, .remembered i category t ∈ log ↔ b.built.lookup (i, category) = some t) ∧
    (∀ e ∈ b.built, ∀ d ∈ b.built, e.2 = d.2 → e.1 = d.1) ∧
    ∀ own ∈ owns, ∀ s keyName t c, s.Below b.schemas.size →
      typeOf s keyName (b.resume own) = .ok t c → b.built <:+ c.built := by
  obtain ⟨tame, bears⟩ := succession.tame closed
  have once : (b.built.map (·.1)).Nodup := (tame {} List.mem_cons_self).keysOnce
  have apart : (b.built.map (·.2)).Nodup := (tame {} List.mem_cons_self).typesOnce
  refine ⟨?_, ?_, ?_, ?_⟩
  · intro i t returned keyName
    obtain ⟨inside, entry⟩ := bears.stand _ returned
    have again : ∀ own, typeOf (.node i) keyName (b.resume own) =
        .ok t (b.resume { own with root := some (own.root.getD i) }) := fun own =>
      typeOf_remembered (b := b.resume own) once entry keyName
    have anew := renewed_ok (again { fileName := b.fileName })
    exact ⟨again, anew⟩
  · intro i category t
    constructor
    · exact fun logged => lookup_eq_of_mem once (bears.stand _ logged)
    · exact fun found => bears.logged _ (mem_of_lookup found)
  · intro e he d hd same
    exact congrArg Prod.fst (List.inj_on_of_nodup_map apart he hd same)
  · intro own listed s keyName t c below run
    have going := tame own (List.mem_cons_of_mem _ listed)
    exact (Graph.Succession.keeps_call going bears below run).1.built

/-- In the knot the node of two types is asked for while the node of two categories is built. Asked
for again, with another key and of a new builder, its type is found. -/
theorem typeOf_knot_again : ∃ b own log, Graph.knot.Succession b [own] log ∧
    .returned 1 2 ∈ log ∧
    typeOf (.node 1) (some "again") (b.resume own) = .ok 2 (b.resume own) ∧
    renewed (typeOf (.node 1) none) b = .ok 2 b ∧ b.built.lookup (1, .union) = some 2 := by
  let start : Builder := { schemas := Graph.knot }
  have closed : Graph.knot.Closed := by decide +kernel
  obtain ⟨t, c, run, rooted⟩ := exists_of_endsIn
    (show endsIn (fun _ c => c.root.isSome) (typeOf (.node 0) none (start.resume {})) = true by
      decide +kernel)
  have listed : .returned 1 2 ∈ recorded (.node 0) none (start.resume {}) [] := by decide +kernel
  have held : .remembered 1 .union 2 ∈ recorded (.node 0) none (start.resume {}) [] := by
    decide +kernel
  have succession : Graph.knot.Succession c [c.own] (recorded (.node 0) none (start.resume {}) []) :=
    .returned (.joined none none (.start .empty [] [])) (k := 0) rfl (by decide) run
  obtain ⟨again, held_iff, _, _⟩ := typeOf_again closed succession
  obtain ⟨root, named⟩ := Option.isSome_iff_exists.mp rooted
  refine ⟨c, c.own, _, succession, listed, ?_, (again 1 2 listed none).2, (held_iff _ _ _).mp held⟩
  have same := (again 1 2 listed (some "again")).1 c.own
  simpa [Builder.own, named] using same

end Build
end LinkedSchema
