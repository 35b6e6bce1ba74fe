import LinkedSchema.Proofs.Build.NodeForms
/-! The time between the reservation of a type and its completion. What is built meanwhile may
refer to the type, which has no contents yet. -/
namespace LinkedSchema

variable {g : Graph} {b c d : Builder} {fuel : Nat} {α β : Type} {i : NodeId} {t : TypeId}
  {category : Category}

/-- The state after a type is reserved for a node in a category. -/
def Builder.reserved (b : Builder) (i : NodeId) (category : Category) : Builder :=
  { b with types := b.types.push {}, built := ((i, category), b.types.size) :: b.built }

/-- The state after a type gets its contents. -/
def Builder.filled (b : Builder) (t : TypeId) (n : TypeNode) : Builder :=
  { b with types := b.types.set t n }

/-- What the later state owes to the one in which the type was reserved: all that a continuation
does, except that the type itself may change. -/
structure Builder.Fills (g : Graph) (t : TypeId) (b later : Builder) : Prop where
  sound : later.Sound g
  grows : b.Grows later
  keeps : ∀ u < b.types.size, u ≠ t → (later.types.node u).form = (b.types.node u).form
  complete : ∀ e ∈ later.built, e ∈ b.built ∨ (b.types.size ≤ e.2 ∧ later.Complete g e)

namespace Subschema

/-- Types of leaves are of these kinds only. -/
theorem kind_of_leaf {s : Subschema} {form : Form α} (leaf : s.leaf = some form) :
    form.kind = some .any ∨ form.kind = some .never ∨ form.kind = some .literal := by
  cases s with
  | node j => cases leaf
  | bool allowed =>
    cases leaf
    cases allowed
    · exact .inr (.inl rfl)
    · exact .inl rfl
  | bare v =>
    cases leaf
    exact .inr (.inr rfl)

end Subschema

/-- The type is of no leaf, as one that is still to be filled is not. -/
def Builder.Open (b : Builder) (t : TypeId) : Prop :=
  ∀ s : Subschema, s.leaf ≠ some (b.types.node t).form

namespace Builder

theorem open_of_kind (unlike : (b.types.node t).kind = none ∨
    (b.types.node t).kind = some .intersection) : b.Open t := by
  intro s leaf
  have kinds := Subschema.kind_of_leaf leaf
  simp only [TypeNode.form] at kinds
  rcases unlike with h | h <;> simp [h] at kinds

theorem Continues.opened (h : b.Continues g c) (inside : t < b.types.size) (isOpen : b.Open t) :
    c.Open t := by
  intro s
  rw [h.keeps t inside]
  exact isOpen s

theorem sound_reserved (sound : b.Sound g) (inside : i < b.schemas.size)
    (absent : b.built.lookup (i, category) = none) : (b.reserved i category).Sound g where
  copies := sound.copies
  built := by
    intro e he
    have size : (b.reserved i category).types.size = b.types.size + 1 := by simp [reserved]
    rw [size]
    rcases List.mem_cons.mp he with rfl | he
    · exact ⟨inside, Nat.lt_succ_self _⟩
    · exact ⟨(sound.built e he).1, Nat.lt_succ_of_lt (sound.built e he).2⟩
  builtOnce := by
    refine List.nodup_cons.mpr ⟨?_, sound.builtOnce⟩
    intro again
    obtain ⟨e, he, same⟩ := List.mem_map.mp again
    exact ne_of_lookup absent e he same

theorem grows_reserved : b.Grows (b.reserved i category) where
  schemas := Nat.le_refl _
  node _ _ := rfl
  built := List.suffix_cons _ _
  stripped := List.suffix_refl _
  hidden _ h := .inl h
  types := Nat.le_of_lt (by simp [reserved])

theorem grows_filled (n : TypeNode) : b.Grows (b.filled t n) :=
  { Grows.refl b with types := by simp [filled] }

theorem form_filled_self (inside : t < b.types.size) (n : TypeNode) :
    ((b.filled t n).types.node t).form = n.form :=
  congrArg TypeNode.form (TypeGraph.node_set_self inside n)

theorem form_filled_ne {u : TypeId} (other : t ≠ u) (n : TypeNode) :
    ((b.filled t n).types.node u).form = (b.types.node u).form :=
  congrArg TypeNode.form (TypeGraph.node_set_ne other n)

theorem open_filled (inside : t < b.types.size) {n : TypeNode}
    (kind : n.kind = some .intersection) : (b.filled t n).Open t :=
  open_of_kind (.inr ((congrArg Form.kind (form_filled_self inside n)).trans kind))

theorem Open.leaf_filled (isOpen : b.Open t) (n : TypeNode) {u : TypeId} {s : Subschema}
    (leaf : s.leaf = some (b.types.node u).form) :
    ((b.filled t n).types.node u).form = (b.types.node u).form := by
  refine form_filled_ne ?_ n
  rintro rfl
  exact isOpen s leaf

theorem Open.stands_filled (isOpen : b.Open t) (n : TypeNode) {u : TypeId} {x : Subject}
    (h : b.Stands g u x) : (b.filled t n).Stands g u x :=
  (grows_filled n).stands (fun _ _ leaf => isOpen.leaf_filled n leaf) h

namespace Fills

theorem refl (sound : b.Sound g) : b.Fills g t b where
  sound := sound
  grows := .refl b
  keeps _ _ _ := rfl
  complete _ h := .inl h

theorem onward (h : b.Fills g t c) (next : c.Continues g d) : b.Fills g t d where
  sound := next.sound
  grows := h.grows.trans next.grows
  keeps u inside other :=
    (next.keeps u (Nat.lt_of_lt_of_le inside h.grows.types)).trans (h.keeps u inside other)
  complete e he := by
    rcases next.complete e he with old | ⟨new, complete⟩
    · rcases h.complete e old with older | ⟨new, complete⟩
      · exact .inl older
      · obtain ⟨inside, filled⟩ := h.sound.built e old
        exact .inr ⟨new, next.grows.complete inside (next.keeps _ filled)
          (fun t _ h _ => next.keeps t h) complete⟩
    · exact .inr ⟨Nat.le_trans h.grows.types new, complete⟩

theorem fill (h : b.Fills g t c) (inside : t < b.types.size) (isOpen : c.Open t) (n : TypeNode) :
    b.Fills g t (c.filled t n) where
  sound := {
    copies := h.sound.copies
    built := by simpa [filled] using h.sound.built
    builtOnce := h.sound.builtOnce }
  grows := h.grows.trans (grows_filled n)
  keeps u below other := (form_filled_ne (Ne.symm other) n).trans (h.keeps u below other)
  complete e he := by
    rcases h.complete e he with old | ⟨new, complete⟩
    · exact .inl old
    · have apart : t ≠ e.2 := Nat.ne_of_lt (Nat.lt_of_lt_of_le inside new)
      exact .inr ⟨new, (grows_filled n).complete (h.sound.built e he).1 (form_filled_ne apart n)
        (fun _ _ _ leaf => isOpen.leaf_filled n leaf) complete⟩

/-- Once the reserved type is complete, the state as before the reservation is continued. -/
theorem continues (h : (b.reserved i category).Fills g b.types.size c)
    (complete : c.Complete g ((i, category), b.types.size)) : b.Continues g c where
  sound := h.sound
  grows := grows_reserved.trans h.grows
  keeps u inside := by
    have more : u < (b.reserved i category).types.size :=
      Nat.lt_of_lt_of_le inside grows_reserved.types
    rw [h.keeps u more (Nat.ne_of_lt inside)]
    exact congrArg TypeNode.form (TypeGraph.node_push_of_lt inside _)
  complete e he := by
    rcases h.complete e he with old | ⟨new, done⟩
    · rcases List.mem_cons.mp old with rfl | older
      · exact .inr ⟨Nat.le_refl _, complete⟩
      · exact .inl older
    · exact .inr ⟨Nat.le_trans grows_reserved.types new, done⟩

end Fills
end Builder

namespace Build

/-- What a step does between reservation and completion, like a contract. -/
def MeetsFilling (g : Graph) (fuel : Nat) (t : TypeId) (b c : Builder) (step : Build α)
    (post : α → Builder → Prop) : Prop :=
  match step c with
  | .ok a later => b.Fills g t later ∧ post a later
  | .error e later =>
    later.Sound g ∧ (e = .outOfFuel → b.built.length + fuel ≤ later.built.length)

theorem fills_pure {post : α → Builder → Prop} {a : α} (h : b.Fills g t c) (holds : post a c) :
    MeetsFilling g fuel t b c (pure a) post := ⟨h, holds⟩

theorem fills_bind {step : Build α} {next : α → Build β} {post : α → Builder → Prop}
    {last : β → Builder → Prop} (h : b.Fills g t c) (first : Meets g fuel c step post)
    (rest : ∀ a later, c.Continues g later → b.Fills g t later → post a later →
      MeetsFilling g fuel t b later (next a) last) :
    MeetsFilling g fuel t b c (step >>= next) last := by
  unfold Meets at first
  cases run : step c with
  | ok a later =>
    simp only [run] at first
    have step_next : (step >>= next) c = next a later := by
      show EStateM.bind step next c = _
      simp only [EStateM.bind, run]
    have then' := rest a later first.1 (h.onward first.1) first.2
    unfold MeetsFilling at then' ⊢
    rwa [step_next]
  | error e later =>
    simp only [run] at first
    have stops : (step >>= next) c = .error e later := by
      show EStateM.bind step next c = _
      simp only [EStateM.bind, run]
    unfold MeetsFilling
    rw [stops]
    exact ⟨first.1, fun spent =>
      Nat.le_trans (Nat.add_le_add_right h.grows.length_le _) (first.2 spent)⟩

theorem fills_fill {step : Build Unit} {next : Build β} {n : TypeNode}
    {last : β → Builder → Prop} (h : b.Fills g t c) (inside : t < b.types.size)
    (isOpen : c.Open t) (run : step c = .ok () (c.filled t n))
    (rest : b.Fills g t (c.filled t n) → MeetsFilling g fuel t b (c.filled t n) next last) :
    MeetsFilling g fuel t b c (step >>= fun _ => next) last := by
  have step_next : (step >>= fun _ => next) c = next (c.filled t n) := by
    show EStateM.bind step _ c = _
    simp only [EStateM.bind, run]
  have then' := rest (h.fill inside isOpen n)
  unfold MeetsFilling at then' ⊢
  rwa [step_next]

/-- A type that is reserved and then completed. The entry for it pays for one level of fuel. -/
theorem meets_reserve {rest : TypeId → Build TypeId}
    (filled : MeetsFilling g fuel b.types.size (b.reserved i category) (b.reserved i category)
      (rest b.types.size)
      (fun t later => t = b.types.size ∧ later.Complete g ((i, category), b.types.size))) :
    Meets g (fuel + 1) b (reserve i category >>= rest)
      (fun t later => ((i, category), t) ∈ later.built) := by
  have step_rest : (reserve i category >>= rest) b = rest b.types.size (b.reserved i category) :=
    rfl
  unfold MeetsFilling at filled
  unfold Meets
  rw [step_rest]
  split
  · rename_i t later run
    simp only [run] at filled
    obtain ⟨fills, rfl, complete⟩ := filled
    exact ⟨fills.continues complete, fills.grows.built.subset List.mem_cons_self⟩
  · rename_i e later run
    simp only [run] at filled
    refine ⟨filled.1, fun spent => ?_⟩
    have := filled.2 spent
    simp only [Builder.reserved, List.length_cons] at this
    omega

end Build
end LinkedSchema
