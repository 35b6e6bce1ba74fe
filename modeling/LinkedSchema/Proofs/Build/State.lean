import LinkedSchema.Proofs.Build.Plain
import LinkedSchema.Proofs.Schema.Definitions
/-! States of a build. A sound state knows where its copies of nodes come from; a later state keeps
what an earlier one has settled; an entry is complete once its type has the form of its subject. -/
namespace LinkedSchema

/-- Whether a node is among the unnamed copies, which stand for one category at a time. -/
def HiddenIn (strips : List (NodeId × NodeId)) (i : NodeId) : Prop := ∃ e ∈ strips, e.2 = i

/-- The copies made so far of the nodes of a graph, or of one another: unnamed ones and ones fixed
to a type. An unnamed copy is not stripped again. -/
structure Copies (g schemas : Graph) (strips : List (NodeId × NodeId))
    (narrows : List ((NodeId × Json) × NodeId)) : Prop where
  kept : ∀ i < g.size, schemas.node i = g.node i
  size : schemas.size = g.size + strips.length + narrows.length
  children : ∀ i < schemas.size, ∀ s ∈ (schemas.node i).children, s.Below g.size
  stripped : ∀ e ∈ strips, e.1 < schemas.size ∧ ¬ HiddenIn strips e.1 ∧
    g.size ≤ e.2 ∧ e.2 < schemas.size ∧ schemas.node e.2 = (schemas.node e.1).unnamed
  narrowed : ∀ e ∈ narrows, e.1.1 < schemas.size ∧ ¬ HiddenIn strips e.2 ∧
    g.size ≤ e.2 ∧ e.2 < schemas.size ∧ schemas.node e.2 = (schemas.node e.1.1).ofType e.1.2 ∧
    e.1.2 ∈ (schemas.node e.1.1).typeList ∧ e.1.2.isArr = false
  origin : ∀ i < schemas.size, i < g.size ∨ HiddenIn strips i ∨ ∃ e ∈ narrows, e.2 = i
  strippedOnce : (strips.map (·.1)).Nodup
  narrowedOnce : narrows.Pairwise fun e d => d.1.1 = e.1.1 → d.1.2.alike e.1.2 = false

namespace Node

/-- Nodes that differ in their types at most, and then in which number the type is. -/
def Similar (n m : Node) : Prop :=
  n = m ∨ ∃ type, m = { n with type } ∧ n.type.number?.isSome ∧ type.number?.isSome

theorem Similar.refl (n : Node) : n.Similar n := .inl rfl

theorem Similar.unnamed {n m : Node} (similar : n.Similar m) : n.unnamed.Similar m.unnamed := by
  rcases similar with rfl | ⟨type, rfl, hn, hm⟩
  · exact .refl _
  · exact .inr ⟨type, rfl, hn, hm⟩

end Node

namespace Builder

def Hidden (b : Builder) (i : NodeId) : Prop := HiddenIn b.stripped i

structure Sound (g : Graph) (b : Builder) : Prop where
  copies : Copies g b.schemas b.stripped b.narrowed
  built : ∀ e ∈ b.built, e.1.1 < b.schemas.size ∧ e.2 < b.types.size
  builtOnce : (b.built.map (·.1)).Nodup

/-- The later state has all that the earlier one has. -/
structure Grows (b later : Builder) : Prop where
  schemas : b.schemas.size ≤ later.schemas.size
  node : ∀ i < b.schemas.size, later.schemas.node i = b.schemas.node i
  built : b.built <:+ later.built
  stripped : b.stripped <:+ later.stripped
  hidden : ∀ e ∈ later.stripped, e ∈ b.stripped ∨ b.schemas.size ≤ e.2
  types : b.types.size ≤ later.types.size

/-- Types keep their forms; their comments may change. -/
def KeepsForms (b later : Builder) : Prop :=
  ∀ t < b.types.size, (later.types.node t).form = (b.types.node t).form

end Builder

/-- The category that the type of a node is remembered under. -/
def Node.slot (n : Node) : Category :=
  match n.categories with
  | [category] => category
  | _ => .allOf

/-- The form of a schema that refers to no node. -/
def Subschema.leaf {α : Type} : Subschema → Option (Form α)
  | .node _ => none
  | .bool b => some (Form.ofBool b)
  | .bare v => some (Form.literal v)

namespace Builder

/-- The type is the one of the node, whether it is filled or not. -/
def Holds (b : Builder) (t : TypeId) (i : NodeId) : Prop :=
  i < b.schemas.size ∧ ¬ b.Hidden i ∧ ((i, (b.schemas.node i).slot), t) ∈ b.built

/-- The type is the one of the schema. -/
def Shows (b : Builder) (t : TypeId) : Subschema → Prop
  | .node i => b.Holds t i
  | s => t < b.types.size ∧ s.leaf = some (b.types.node t).form

/-- The type is the one of the subject. -/
def Stands (g : Graph) (b : Builder) (t : TypeId) : Subject → Prop
  | .schema s => s.Below g.size ∧ b.Shows t s
  | .whole n => ∃ i, b.Holds t i ∧ (b.schemas.node i).Similar n
  | .part n category => ∃ i < b.schemas.size, b.Hidden i ∧ ((i, category), t) ∈ b.built ∧
      (b.schemas.node i).Similar n

/-- The type of an entry has the form that belongs there. -/
def Complete (g : Graph) (b : Builder) (e : (NodeId × Category) × TypeId) : Prop :=
  ∃ form, ((b.Hidden e.1.1 ∧ (b.schemas.node e.1.1).formIn e.1.2 = some form) ∨
      (¬ b.Hidden e.1.1 ∧ (b.schemas.node e.1.1).form = some form)) ∧
    (b.types.node e.2).form.Matches Eq (b.Stands g) form

/-- What a step does to a sound state: it keeps what is there, and completes what it adds. -/
structure Continues (g : Graph) (b later : Builder) : Prop where
  sound : later.Sound g
  grows : b.Grows later
  keeps : b.KeepsForms later
  complete : ∀ e ∈ later.built, e ∈ b.built ∨ (b.types.size ≤ e.2 ∧ later.Complete g e)

theorem Grows.refl (b : Builder) : b.Grows b where
  schemas := Nat.le_refl _
  node _ _ := rfl
  built := List.suffix_refl _
  stripped := List.suffix_refl _
  hidden _ h := .inl h
  types := Nat.le_refl _

theorem Grows.trans {b c d : Builder} (first : b.Grows c) (next : c.Grows d) : b.Grows d where
  schemas := Nat.le_trans first.schemas next.schemas
  node i h := (next.node i (Nat.lt_of_lt_of_le h first.schemas)).trans (first.node i h)
  built := first.built.trans next.built
  stripped := first.stripped.trans next.stripped
  hidden e h := by
    rcases next.hidden e h with h | h
    · exact first.hidden e h
    · exact .inr (Nat.le_trans first.schemas h)
  types := Nat.le_trans first.types next.types

theorem Grows.length_le {b later : Builder} (grows : b.Grows later) :
    b.built.length ≤ later.built.length := grows.built.length_le

theorem Grows.hidden_iff {b later : Builder} (grows : b.Grows later) {i : NodeId}
    (inside : i < b.schemas.size) : later.Hidden i ↔ b.Hidden i := by
  constructor
  · rintro ⟨e, he, rfl⟩
    rcases grows.hidden e he with h | h
    · exact ⟨e, h, rfl⟩
    · exact absurd h (Nat.not_le_of_lt inside)
  · rintro ⟨e, he, rfl⟩
    exact ⟨e, grows.stripped.subset he, rfl⟩

theorem Grows.holds {b later : Builder} (grows : b.Grows later) {t : TypeId} {i : NodeId}
    (h : b.Holds t i) : later.Holds t i := by
  obtain ⟨inside, shown, entry⟩ := h
  refine ⟨Nat.lt_of_lt_of_le inside grows.schemas, ?_, ?_⟩
  · rwa [grows.hidden_iff inside]
  · rw [grows.node i inside]
    exact grows.built.subset entry

/-- A type that is none of the leaves may change its form, and all types stand for what they stood
for before. -/
theorem Grows.shows {b later : Builder} (grows : b.Grows later) {t : TypeId} {s : Subschema}
    (leaves : t < b.types.size → s.leaf = some (b.types.node t).form →
      (later.types.node t).form = (b.types.node t).form)
    (h : b.Shows t s) : later.Shows t s := by
  cases s with
  | node i => exact grows.holds h
  | bool x => exact ⟨Nat.lt_of_lt_of_le h.1 grows.types, (leaves h.1 h.2).symm ▸ h.2⟩
  | bare v => exact ⟨Nat.lt_of_lt_of_le h.1 grows.types, (leaves h.1 h.2).symm ▸ h.2⟩

theorem Grows.stands {g : Graph} {b later : Builder} (grows : b.Grows later) {t : TypeId}
    {x : Subject}
    (leaves : ∀ s : Subschema, t < b.types.size → s.leaf = some (b.types.node t).form →
      (later.types.node t).form = (b.types.node t).form)
    (h : b.Stands g t x) : later.Stands g t x := by
  cases x with
  | schema s => exact ⟨h.1, grows.shows (leaves s) h.2⟩
  | whole n =>
    obtain ⟨i, holds, similar⟩ := h
    exact ⟨i, grows.holds holds, by rwa [grows.node i holds.1]⟩
  | part n category =>
    obtain ⟨i, inside, hidden, entry, similar⟩ := h
    exact ⟨i, Nat.lt_of_lt_of_le inside grows.schemas, (grows.hidden_iff inside).mpr hidden,
      grows.built.subset entry, by rwa [grows.node i inside]⟩

/-- An entry stays complete while its own type and the leaves keep their forms. -/
theorem Grows.complete {g : Graph} {b later : Builder} (grows : b.Grows later)
    {e : (NodeId × Category) × TypeId} (inside : e.1.1 < b.schemas.size)
    (own : (later.types.node e.2).form = (b.types.node e.2).form)
    (leaves : ∀ (t : TypeId) (s : Subschema), t < b.types.size →
      s.leaf = some (b.types.node t).form →
      (later.types.node t).form = (b.types.node t).form)
    (h : b.Complete g e) : later.Complete g e := by
  obtain ⟨form, made, agree⟩ := h
  refine ⟨form, ?_, ?_⟩
  · rwa [grows.hidden_iff inside, grows.node _ inside]
  · rw [own]
    exact agree.imp fun t x h => grows.stands (leaves t) h

namespace Continues

variable {g : Graph} {b c d : Builder}

theorem refl (sound : b.Sound g) : b.Continues g b where
  sound := sound
  grows := .refl b
  keeps _ _ := rfl
  complete _ h := .inl h

theorem stands (h : b.Continues g c) {t : TypeId} {x : Subject} (stands : b.Stands g t x) :
    c.Stands g t x :=
  h.grows.stands (fun _ inside _ => h.keeps t inside) stands

theorem trans (first : b.Continues g c) (next : c.Continues g d) : b.Continues g d where
  sound := next.sound
  grows := first.grows.trans next.grows
  keeps t h := (next.keeps t (Nat.lt_of_lt_of_le h first.grows.types)).trans (first.keeps t h)
  complete e he := by
    rcases next.complete e he with old | ⟨new, complete⟩
    · rcases first.complete e old with older | ⟨new, complete⟩
      · exact .inl older
      · obtain ⟨inside, filled⟩ := first.sound.built e old
        exact .inr ⟨new, next.grows.complete inside (next.keeps _ filled)
          (fun t _ h _ => next.keeps t h) complete⟩
    · exact .inr ⟨Nat.le_trans first.grows.types new, complete⟩

end Continues
end Builder
end LinkedSchema
