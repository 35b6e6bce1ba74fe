import LinkedSchema.Proofs.Build.Bounds
import LinkedSchema.Proofs.Build.Outcomes
import LinkedSchema.Proofs.Build.Refusals
/-! What a build that fails leaves behind. The entries that it adds are settled, but for those that
it was about to fill: they stay unfinished, and no type can be made of what they are for. -/
namespace LinkedSchema

variable {g base : Graph} {b c d : Builder} {n : Node} {i : NodeId}
  {t : TypeId} {category : Category} {x : Subject} {failed : Prop} {old : List (NodeId × NodeId)}
  {s : Subschema}

/-- A graph that goes on from another one with copies of its nodes, of which some are known to be
unnamed copies. -/
structure Graph.Extends (base g : Graph) (old : List (NodeId × NodeId)) : Prop where
  kept : ∀ i < g.size, base.node i = g.node i
  size : g.size ≤ base.size
  children : ∀ i < base.size, ∀ s ∈ (base.node i).children, s.Below g.size
  names : base.NamesTypes
  old : ∀ e ∈ old, g.size ≤ e.2 ∧ e.2 < base.size

namespace Builder

/-- The state as one that also knows the unnamed copies of former builders. -/
def recalling (b : Builder) (old : List (NodeId × NodeId)) : Builder :=
  { b with stripped := b.stripped ++ old }

theorem hidden_recalling : (b.recalling old).Hidden i ↔ b.Hidden i ∨ HiddenIn old i := by
  simp only [Hidden, HiddenIn, recalling, List.mem_append, or_and_right, exists_or]

theorem Grows.recalling (grows : b.Grows c) : (b.recalling old).Grows (c.recalling old) where
  schemas := grows.schemas
  node := grows.node
  built := grows.built
  stripped := by
    obtain ⟨more, same⟩ := grows.stripped
    exact ⟨more, by simp only [Builder.recalling, ← same, List.append_assoc]⟩
  hidden e listed := by
    rcases List.mem_append.mp listed with here | there
    · exact (grows.hidden e here).imp_left (List.mem_append_left _)
    · exact .inl (List.mem_append_right _ there)
  types := grows.types

theorem Grows.recalled (grows : b.Grows c) (inside : i < b.schemas.size) :
    (c.recalling old).schemas.node i = b.schemas.node i := grows.node i inside

/-- The type of an entry has the form that belongs there, and a name if one is called for. -/
def Settled (g : Graph) (b : Builder) (e : (NodeId × Category) × TypeId) : Prop :=
  (b.schemas.node e.1.1).Nameable ∧ b.Complete g e

/-- The type of an entry has no contents, or it is the intersection of the types of a node in
several categories and has no members yet. -/
def Unfinished (b : Builder) (e : (NodeId × Category) × TypeId) : Prop :=
  (b.types.node e.2).form.kind = none ∨
    (¬ b.Hidden e.1.1 ∧ (∀ c, (b.schemas.node e.1.1).categories ≠ [c]) ∧
      (b.types.node e.2).form.kind = some .intersection ∧
      (b.types.node e.2).form.params = .many [])

/-- The type of an entry is unfinished, and no type can be made of what it was to be the type of. -/
def Abandoned (g : Graph) (b : Builder) (e : (NodeId × Category) × TypeId) : Prop :=
  b.Unfinished e ∧
    ((b.Hidden e.1.1 ∧ g.Refuses (.part (b.schemas.node e.1.1) e.1.2)) ∨
      (¬ b.Hidden e.1.1 ∧ g.Refuses (.whole (b.schemas.node e.1.1))))

theorem Settled.later {e : (NodeId × Category) × TypeId} (settled : b.Settled g e)
    (grows : b.Grows c) (inside : e.1.1 < b.schemas.size)
    (own : (c.types.node e.2).form = (b.types.node e.2).form)
    (leaves : ∀ (t : TypeId) (s : Subschema), t < b.types.size →
      s.leaf = some (b.types.node t).form → (c.types.node t).form = (b.types.node t).form) :
    c.Settled g e := by
  refine ⟨?_, grows.complete inside own leaves settled.2⟩
  rw [grows.node _ inside]
  exact settled.1

theorem Unfinished.later {e : (NodeId × Category) × TypeId} (unfinished : b.Unfinished e)
    (grows : b.Grows c) (inside : e.1.1 < b.schemas.size)
    (own : (c.types.node e.2).form = (b.types.node e.2).form) : c.Unfinished e := by
  unfold Unfinished
  rwa [own, grows.hidden_iff inside, grows.node _ inside]

theorem Abandoned.later {e : (NodeId × Category) × TypeId} (abandoned : b.Abandoned g e)
    (grows : b.Grows c) (inside : e.1.1 < b.schemas.size)
    (own : (c.types.node e.2).form = (b.types.node e.2).form) : c.Abandoned g e := by
  refine ⟨abandoned.1.later grows inside own, ?_⟩
  rw [grows.hidden_iff inside, grows.node _ inside]
  exact abandoned.2

/-- What a step leaves behind: it keeps what is there, and what it adds is settled, or abandoned if
the step has failed. -/
structure Follows (g base : Graph) (old : List (NodeId × NodeId)) (failed : Prop)
    (b later : Builder) : Prop where
  sound : later.Sound base
  grows : b.Grows later
  keeps : b.KeepsForms later
  entries : ∀ e ∈ later.built, e ∈ b.built ∨ (b.types.size ≤ e.2 ∧
    ((later.recalling old).Settled g e ∨ (failed ∧ (later.recalling old).Abandoned g e)))

/-- What is left of a builder that is about to fill the type of an entry, the first one that it
added. -/
structure Filling (g base : Graph) (old : List (NodeId × NodeId)) (key : NodeId × Category)
    (b later : Builder) : Prop where
  sound : later.Sound base
  grows : b.Grows later
  keeps : b.KeepsForms later
  entry : (key, b.types.size) ∈ later.built
  unfinished : (later.recalling old).Unfinished (key, b.types.size)
  entries : ∀ e ∈ later.built, e ∈ b.built ∨ e = (key, b.types.size) ∨
    (b.types.size < e.2 ∧ (later.recalling old).Settled g e)

namespace Follows

theorem refl (sound : b.Sound base) : b.Follows g base old failed b where
  sound := sound
  grows := .refl b
  keeps _ _ := rfl
  entries _ listed := .inl listed

theorem of_continues (continues : b.Continues base c) (built : c.built = b.built) :
    b.Follows g base old failed c where
  sound := continues.sound
  grows := continues.grows
  keeps := continues.keeps
  entries _ listed := .inl (built ▸ listed)

theorem stands (follows : b.Follows g base old failed c)
    (stands : (b.recalling old).Stands g t x) : (c.recalling old).Stands g t x :=
  follows.grows.recalling.stands (fun _ inside _ => follows.keeps t inside) stands

theorem settled (follows : b.Follows g base old failed c) (sound : b.Sound base)
    {e : (NodeId × Category) × TypeId} (listed : e ∈ b.built)
    (settled : (b.recalling old).Settled g e) : (c.recalling old).Settled g e := by
  obtain ⟨inside, filled⟩ := sound.built e listed
  exact settled.later follows.grows.recalling inside (follows.keeps _ filled)
    fun t _ below _ => follows.keeps t below

theorem abandoned (follows : b.Follows g base old failed c) (sound : b.Sound base)
    {e : (NodeId × Category) × TypeId} (listed : e ∈ b.built)
    (abandoned : (b.recalling old).Abandoned g e) : (c.recalling old).Abandoned g e := by
  obtain ⟨inside, filled⟩ := sound.built e listed
  exact abandoned.later follows.grows.recalling inside (follows.keeps _ filled)

theorem trans (first : b.Follows g base old False c) (next : c.Follows g base old failed d) :
    b.Follows g base old failed d where
  sound := next.sound
  grows := first.grows.trans next.grows
  keeps t below :=
    (next.keeps t (Nat.lt_of_lt_of_le below first.grows.types)).trans (first.keeps t below)
  entries e listed := by
    rcases next.entries e listed with here | ⟨new, made⟩
    · rcases first.entries e here with older | ⟨new, settled | ⟨impossible, _⟩⟩
      · exact .inl older
      · exact .inr ⟨new, .inl (next.settled first.sound here settled)⟩
      · exact impossible.elim
    · exact .inr ⟨Nat.le_trans first.grows.types new, made⟩

end Follows

namespace Filling

variable {key : NodeId × Category}

theorem reserved (sound : b.Sound base) (inside : i < b.schemas.size)
    (absent : b.built.lookup (i, category) = none) :
    b.Filling g base old (i, category) (b.reserved i category) where
  sound := sound_reserved sound inside absent
  grows := grows_reserved
  keeps t below := congrArg TypeNode.form (TypeGraph.node_push_of_lt below _)
  entry := List.mem_cons_self
  unfinished := .inl (congrArg TypeNode.kind (TypeGraph.node_push_self _ _))
  entries e listed := by
    rcases List.mem_cons.mp listed with rfl | older
    · exact .inr (.inl rfl)
    · exact .inl older

theorem inside (filling : b.Filling g base old key c) : b.types.size < c.types.size :=
  (filling.sound.built _ filling.entry).2

theorem node_inside (filling : b.Filling g base old key c) : key.1 < c.schemas.size :=
  (filling.sound.built _ filling.entry).1

theorem isOpen (filling : b.Filling g base old key c) : c.Open b.types.size :=
  open_of_kind (filling.unfinished.imp id fun h => h.2.2.1)

theorem follows (filling : b.Filling g base old key c) (next : c.Follows g base old False d) :
    b.Filling g base old key d where
  sound := next.sound
  grows := filling.grows.trans next.grows
  keeps t below :=
    (next.keeps t (Nat.lt_of_lt_of_le below filling.grows.types)).trans (filling.keeps t below)
  entry := next.grows.built.subset filling.entry
  unfinished := filling.unfinished.later next.grows.recalling filling.node_inside
    (next.keeps _ filling.inside)
  entries e listed := by
    rcases next.entries e listed with here | ⟨new, settled | ⟨impossible, _⟩⟩
    · rcases filling.entries e here with older | own | ⟨new, settled⟩
      · exact .inl older
      · exact .inr (.inl own)
      · exact .inr (.inr ⟨new, next.settled filling.sound here settled⟩)
    · exact .inr (.inr ⟨Nat.lt_of_lt_of_le filling.inside new, settled⟩)
    · exact impossible.elim

/-- Filling the type disturbs nothing else. -/
theorem settled_filled (filling : b.Filling g base old key c) {n : TypeNode}
    {e : (NodeId × Category) × TypeId} (listed : e ∈ c.built) (other : b.types.size < e.2)
    (settled : (c.recalling old).Settled g e) :
    ((c.filled b.types.size n).recalling old).Settled g e :=
  settled.later (grows_filled n).recalling (filling.sound.built e listed).1
    (form_filled_ne (Nat.ne_of_lt other) n) fun _ _ _ leaf => filling.isOpen.leaf_filled n leaf

theorem sound_filled (filling : b.Filling g base old key c) (n : TypeNode) :
    (c.filled b.types.size n).Sound base where
  copies := filling.sound.copies
  built := by simpa [filled] using filling.sound.built
  builtOnce := filling.sound.builtOnce

theorem keeps_filled (filling : b.Filling g base old key c) (n : TypeNode) :
    b.KeepsForms (c.filled b.types.size n) := fun t below =>
  (form_filled_ne (Nat.ne_of_gt below) n).trans (filling.keeps t below)

/-- A type that is filled in part is still to be filled. -/
theorem filled (filling : b.Filling g base old key c) {n : TypeNode}
    (unfinished : ((c.filled b.types.size n).recalling old).Unfinished (key, b.types.size)) :
    b.Filling g base old key (c.filled b.types.size n) where
  sound := filling.sound_filled n
  grows := filling.grows.trans (grows_filled n)
  keeps := filling.keeps_filled n
  entry := filling.entry
  unfinished := unfinished
  entries e listed := by
    rcases filling.entries e listed with older | own | ⟨new, settled⟩
    · exact .inl older
    · exact .inr (.inl own)
    · exact .inr (.inr ⟨new, filling.settled_filled listed new settled⟩)

theorem completes (filling : b.Filling g base old key c) {n : TypeNode}
    (settled : ((c.filled b.types.size n).recalling old).Settled g (key, b.types.size)) :
    b.Follows g base old False (c.filled b.types.size n) where
  sound := filling.sound_filled n
  grows := filling.grows.trans (grows_filled n)
  keeps := filling.keeps_filled n
  entries e listed := by
    rcases filling.entries e listed with older | rfl | ⟨new, other⟩
    · exact .inl older
    · exact .inr ⟨Nat.le_refl _, .inl settled⟩
    · exact .inr ⟨Nat.le_of_lt new, .inl (filling.settled_filled listed new other)⟩

/-- When a step fails while the type is still to be filled, its entry is abandoned. -/
theorem fails (filling : b.Filling g base old key c) (next : c.Follows g base old True d)
    (refused : ((c.recalling old).Hidden key.1 ∧ g.Refuses (.part (c.schemas.node key.1) key.2)) ∨
      (¬ (c.recalling old).Hidden key.1 ∧ g.Refuses (.whole (c.schemas.node key.1)))) :
    b.Follows g base old True d where
  sound := next.sound
  grows := filling.grows.trans next.grows
  keeps t below :=
    (next.keeps t (Nat.lt_of_lt_of_le below filling.grows.types)).trans (filling.keeps t below)
  entries e listed := by
    rcases next.entries e listed with here | ⟨new, made⟩
    · rcases filling.entries e here with older | rfl | ⟨new, settled⟩
      · exact .inl older
      · exact .inr ⟨Nat.le_refl _,
          .inr ⟨trivial, next.abandoned filling.sound here ⟨filling.unfinished, refused⟩⟩⟩
      · exact .inr ⟨Nat.le_of_lt new, .inl (next.settled filling.sound here settled)⟩
    · exact .inr ⟨Nat.le_trans (Nat.le_of_lt filling.inside) new, made⟩

end Filling
end Builder
end LinkedSchema
