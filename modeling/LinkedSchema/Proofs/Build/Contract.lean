import LinkedSchema.Proofs.Build.State
/-! Contracts of the steps of a build. A step that meets its contract continues a sound state; one
that fails leaves a sound state behind. Running out of fuel is paid for with entries: as many are
new as the contract says. -/
namespace LinkedSchema

variable {g : Graph} {b : Builder} {fuel : Nat} {α β : Type}

namespace Build

def Meets (g : Graph) (fuel : Nat) (b : Builder) (step : Build α) (post : α → Builder → Prop) :
    Prop :=
  match step b with
  | .ok a later => b.Continues g later ∧ post a later
  | .error e later =>
    later.Sound g ∧ (e = .outOfFuel → b.built.length + fuel ≤ later.built.length)

theorem meets_of_ok {step : Build α} {post : α → Builder → Prop} {a : α} {later : Builder}
    (run : step b = .ok a later) (continues : b.Continues g later) (holds : post a later) :
    Meets g fuel b step post := by
  unfold Meets
  rw [run]
  exact ⟨continues, holds⟩

theorem meets_of_error {step : Build α} {post : α → Builder → Prop} {e : Fault}
    {later : Builder} (run : step b = .error e later) (sound : later.Sound g)
    (fueled : e ≠ .outOfFuel) : Meets g fuel b step post := by
  unfold Meets
  rw [run]
  exact ⟨sound, fun h => absurd h fueled⟩

theorem meets_pure {post : α → Builder → Prop} {a : α} (sound : b.Sound g) (holds : post a b) :
    Meets g fuel b (pure a) post :=
  meets_of_ok rfl (.refl sound) holds

theorem meets_throw {post : α → Builder → Prop} {e : Fault} (sound : b.Sound g)
    (fueled : e ≠ .outOfFuel) : Meets g fuel b (throw e) post :=
  meets_of_error rfl sound fueled

theorem meets_throw_bind {next : α → Build β} {post : β → Builder → Prop} {e : Fault}
    (sound : b.Sound g) (fueled : e ≠ .outOfFuel) :
    Meets g fuel b (throw e >>= next) post :=
  meets_of_error rfl sound fueled

theorem meets_get (sound : b.Sound g) :
    Meets g fuel b get (fun a later => a = b ∧ later = b) :=
  meets_of_ok rfl (.refl sound) ⟨rfl, rfl⟩

theorem Meets.ok {step : Build α} {post : α → Builder → Prop} {a : α} {later : Builder}
    (h : Meets g fuel b step post) (run : step b = .ok a later) :
    b.Continues g later ∧ post a later := by
  unfold Meets at h
  rwa [run] at h

theorem Meets.imp {step : Build α} {post weaker : α → Builder → Prop}
    (h : Meets g fuel b step post)
    (weaken : ∀ a later, b.Continues g later → post a later → weaker a later) :
    Meets g fuel b step weaker := by
  unfold Meets at h ⊢
  split
  · rename_i a later run
    simp only [run] at h
    exact ⟨h.1, weaken a later h.1 h.2⟩
  · rename_i e later run
    simpa only [run] using h

theorem Meets.lower {step : Build α} {post : α → Builder → Prop} {less : Nat}
    (h : Meets g fuel b step post) (le : less ≤ fuel) : Meets g less b step post := by
  unfold Meets at h ⊢
  split
  · rename_i a later run
    simpa only [run] using h
  · rename_i e later run
    simp only [run] at h
    exact ⟨h.1, fun spent => Nat.le_trans (Nat.add_le_add_left le _) (h.2 spent)⟩

theorem Meets.bind {step : Build α} {next : α → Build β} {post : α → Builder → Prop}
    {last : β → Builder → Prop} (first : Meets g fuel b step post)
    (rest : ∀ a later, b.Continues g later → post a later → Meets g fuel later (next a) last) :
    Meets g fuel b (step >>= next) last := by
  unfold Meets at first
  cases run : step b with
  | ok a later =>
    simp only [run] at first
    have then' := rest a later first.1 first.2
    unfold Meets at then' ⊢
    have step_next : (step >>= next) b = next a later := by
      show EStateM.bind step next b = _
      simp only [EStateM.bind, run]
    rw [step_next]
    split
    · rename_i r final run'
      simp only [run'] at then'
      exact ⟨first.1.trans then'.1, then'.2⟩
    · rename_i e final run'
      simp only [run'] at then'
      exact ⟨then'.1, fun spent =>
        Nat.le_trans (Nat.add_le_add_right first.1.grows.length_le _) (then'.2 spent)⟩
  | error e later =>
    simp only [run] at first
    have stops : (step >>= next) b = .error e later := by
      show EStateM.bind step next b = _
      simp only [EStateM.bind, run]
    unfold Meets
    rw [stops]
    exact first

/-- A step for each element of a list. What holds of a result has to last while others are made. -/
theorem meets_mapM {f : α → Build β} {R : Builder → β → α → Prop}
    (lasts : ∀ c d r a, Builder.Continues g c d → R c r a → R d r a) {xs : List α}
    (sound : b.Sound g)
    (each : ∀ a ∈ xs, ∀ later, b.Continues g later →
      Meets g fuel later (f a) (fun r last => R last r a)) :
    Meets g fuel b (xs.mapM f) (fun rs later => List.Forall₂ (R later) rs xs) := by
  induction xs generalizing b with
  | nil =>
    rw [List.mapM_nil]
    exact meets_pure sound .nil
  | cons x xs ih =>
    rw [List.mapM_cons]
    apply (each x List.mem_cons_self b (.refl sound)).bind
    intro r later continues head
    have tail := ih continues.sound fun a ha last after =>
      each a (List.mem_cons_of_mem _ ha) last (continues.trans after)
    apply tail.bind
    intro rs last after holds
    exact meets_pure after.sound (.cons (lasts _ _ _ _ after head) holds)

end Build

namespace Builder

/-- A state with the same schemas and entries, in which types may be added and commented on. -/
theorem Continues.of_types {later : Builder} (sound : b.Sound g)
    (schemas : later.schemas = b.schemas) (built : later.built = b.built)
    (stripped : later.stripped = b.stripped) (narrowed : later.narrowed = b.narrowed)
    (types : b.types.size ≤ later.types.size) (keeps : b.KeepsForms later) :
    b.Continues g later where
  sound := {
    copies := by rw [schemas, stripped, narrowed]; exact sound.copies
    built := by
      rw [built, schemas]
      intro e he
      exact ⟨(sound.built e he).1, Nat.lt_of_lt_of_le (sound.built e he).2 types⟩
    builtOnce := by rw [built]; exact sound.builtOnce }
  grows := {
    schemas := Nat.le_of_eq (congrArg Graph.size schemas.symm)
    node := by rw [schemas]; exact fun _ _ => rfl
    built := built ▸ List.suffix_refl _
    stripped := stripped ▸ List.suffix_refl _
    hidden := by rw [stripped]; exact fun _ h => .inl h
    types := types }
  keeps := keeps
  complete := by rw [built]; exact fun _ h => .inl h

theorem Continues.of_same {later : Builder} (sound : b.Sound g)
    (schemas : later.schemas = b.schemas) (types : later.types = b.types)
    (built : later.built = b.built) (stripped : later.stripped = b.stripped)
    (narrowed : later.narrowed = b.narrowed) : b.Continues g later :=
  .of_types sound schemas built stripped narrowed (Nat.le_of_eq (by rw [types]))
    (by unfold KeepsForms; rw [types]; exact fun _ _ => rfl)

end Builder

namespace Build

theorem meets_addType {n : TypeNode} (sound : b.Sound g) :
    Meets g fuel b (addType n)
      (fun t later => t < later.types.size ∧ (later.types.node t).form = n.form) := by
  have run : addType n b = .ok b.types.size { b with types := b.types.push n } := rfl
  apply meets_of_ok run
  · refine .of_types sound rfl rfl rfl rfl ?_ ?_
    · exact Nat.le_of_lt (by simp)
    · intro t ht
      exact congrArg TypeNode.form (TypeGraph.node_push_of_lt ht n)
  · exact ⟨by simp, congrArg TypeNode.form (TypeGraph.node_push_self _ n)⟩

theorem meets_addNote {t : TypeId} {note : String} (sound : b.Sound g) :
    Meets g fuel b (addNote t note) (fun _ _ => True) := by
  have run : ∃ comment, addNote t note b = .ok () { b with
      types := b.types.set t { b.types.node t with comment } } := ⟨_, rfl⟩
  obtain ⟨comment, run⟩ := run
  apply meets_of_ok run _ trivial
  refine .of_types sound rfl rfl rfl rfl ?_ ?_
  · simp
  · intro u hu
    by_cases same : t = u
    · subst same
      exact (congrArg TypeNode.form (TypeGraph.node_set_self hu _)).trans rfl
    · exact congrArg TypeNode.form (TypeGraph.node_set_ne same _)

theorem meets_noteRoot {i : NodeId} (sound : b.Sound g) :
    Meets g fuel b (noteRoot i) (fun _ _ => True) := by
  have run : noteRoot i b = .ok () { b with root := some (b.root.getD i) } := rfl
  exact meets_of_ok run (.of_same sound rfl rfl rfl rfl rfl) trivial

theorem meets_schema {i : NodeId} (sound : b.Sound g) :
    Meets g fuel b (schema i) (fun n later => n = later.schemas.node i) := by
  have run : schema i b = .ok (b.schemas.node i) b := rfl
  exact meets_of_ok run (.refl sound) rfl

theorem meets_keyBelow {i : NodeId} {root : Option NodeId} (sound : b.Sound g) :
    Meets g fuel b (keyBelow i root) (fun _ _ => True) := by
  have run : ∃ key definitions, keyBelow i root b = .ok key { b with definitions } :=
    ⟨_, _, rfl⟩
  obtain ⟨key, definitions, run⟩ := run
  exact meets_of_ok run (.of_same sound rfl rfl rfl rfl rfl) trivial

theorem meets_definitionKey {i : NodeId} (sound : b.Sound g) :
    Meets g fuel b (definitionKey i) (fun _ _ => True) := by
  apply (meets_keyBelow sound).bind
  intro key later continues _
  cases key with
  | some key => exact meets_pure continues.sound trivial
  | none =>
    apply (meets_get continues.sound).bind
    rintro a last after ⟨rfl, rfl⟩
    split
    · split
      · exact meets_pure after.sound trivial
      · exact meets_keyBelow after.sound
    · exact meets_pure after.sound trivial

theorem meets_standaloneName {n : Node} {key : Option String} (sound : b.Sound g) :
    Meets g fuel b (standaloneName n key) (fun _ _ => True) := by
  unfold standaloneName
  extract_lets source
  generalize source = v
  split
  · rename_i text
    split
    · exact meets_pure sound trivial
    · exact meets_of_ok rfl (.of_same sound rfl rfl rfl rfl rfl) trivial
  · exact meets_throw sound nofun

end Build
end LinkedSchema
