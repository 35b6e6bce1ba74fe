import LinkedSchema.Proofs.Build.Filling
import LinkedSchema.Proofs.Build.Origins
import LinkedSchema.Proofs.Build.Outcomes
import Mathlib.Data.List.Nodup
/-! The nodes that stand for nodes and copies of a graph in a state of a build, and the spots of the
graph that the build has come to. -/
namespace LinkedSchema

variable {g schemas : Graph} {b c : Builder} {strips more : List (NodeId × NodeId)}
  {narrows further : List ((NodeId × Json) × NodeId)} {o p : Origin} {i j k : NodeId}
  {category : Category} {met entered : List Spot}

/-- The node that an origin is, or the copy that was made for it. -/
inductive Represents (g : Graph) (strips : List (NodeId × NodeId))
    (narrows : List ((NodeId × Json) × NodeId)) : Origin → NodeId → Prop where
  | node {i : NodeId} : i < g.size → Represents g strips narrows (.node i) i
  | unnamed {o : Origin} {i k : NodeId} : Represents g strips narrows o i → (i, k) ∈ strips →
      Represents g strips narrows (.unnamed o) k
  | ofType {o : Origin} {i k : NodeId} {type : Json} : Represents g strips narrows o i →
      ((i, type), k) ∈ narrows → Represents g strips narrows (.ofType o type) k

/-- The origin is built as a whole, as all but unnamed copies are. -/
def Origin.Shown : Origin → Prop
  | .unnamed _ => False
  | _ => True

namespace Represents

theorem mono (represents : Represents g strips narrows o k) (stripped : strips ⊆ more)
    (narrowed : narrows ⊆ further) : Represents g more further o k := by
  induction represents with
  | node inside => exact .node inside
  | unnamed _ listed ih => exact .unnamed ih (stripped listed)
  | ofType _ listed ih => exact .ofType ih (narrowed listed)

variable (copies : Copies g schemas strips narrows)
include copies

theorem inside (represents : Represents g strips narrows o k) : k < schemas.size := by
  cases represents with
  | node inside => exact Nat.lt_of_lt_of_le inside copies.size_le
  | unnamed _ listed => exact (copies.stripped _ listed).2.2.2.1
  | ofType _ listed => exact (copies.narrowed _ listed).2.2.2.1

theorem content (represents : Represents g strips narrows o k) :
    schemas.node k = g.content o := by
  induction represents with
  | node inside => exact copies.kept _ inside
  | unnamed _ listed ih =>
    obtain ⟨_, _, _, _, same⟩ := copies.stripped _ listed
    rw [same, ih]
    rfl
  | ofType _ listed ih =>
    obtain ⟨_, _, _, _, same, _, _⟩ := copies.narrowed _ listed
    rw [same, ih]
    rfl

theorem shown (represents : Represents g strips narrows o k) (shown : o.Shown) :
    ¬ HiddenIn strips k := by
  cases represents with
  | node inside => exact copies.shown_of_lt inside
  | unnamed => exact shown.elim
  | ofType _ listed => exact (copies.narrowed _ listed).2.1

/-- A node stands for one origin only. -/
theorem origin_eq (represents : Represents g strips narrows o k)
    (other : Represents g strips narrows p k) : o = p := by
  have stripped : (strips.map (·.2)).Nodup := copies.apart.of_append_left
  have narrowed : (narrows.map (·.2)).Nodup := copies.apart.of_append_right
  induction represents generalizing p with
  | node inside =>
    cases other with
    | node => rfl
    | unnamed _ listed => exact absurd inside (Nat.not_lt.mpr (copies.stripped _ listed).2.2.1)
    | ofType _ listed => exact absurd inside (Nat.not_lt.mpr (copies.narrowed _ listed).2.2.1)
  | unnamed _ listed ih =>
    cases other with
    | node inside => exact absurd inside (Nat.not_lt.mpr (copies.stripped _ listed).2.2.1)
    | unnamed source again =>
      cases List.inj_on_of_nodup_map stripped listed again rfl
      rw [ih source]
    | ofType _ again => exact ((copies.narrowed _ again).2.1 ⟨_, listed, rfl⟩).elim
  | ofType _ listed ih =>
    cases other with
    | node inside => exact absurd inside (Nat.not_lt.mpr (copies.narrowed _ listed).2.2.1)
    | unnamed _ again => exact ((copies.narrowed _ listed).2.1 ⟨_, again, rfl⟩).elim
    | ofType source again =>
      cases List.inj_on_of_nodup_map narrowed listed again rfl
      rw [ih source]

/-- An origin is represented by one node only. -/
theorem node_eq (names : g.NamesTypes) (represents : Represents g strips narrows o j)
    (other : Represents g strips narrows o k) : j = k := by
  induction represents generalizing k with
  | node =>
    cases other
    rfl
  | unnamed _ listed ih =>
    cases other with
    | unnamed source again =>
      cases ih source
      exact congrArg Prod.snd (List.inj_on_of_nodup_map copies.strippedOnce listed again rfl)
  | ofType _ listed ih =>
    cases other with
    | ofType source again =>
      cases ih source
      have once := copies.narrowed_keysOnce names
      exact congrArg Prod.snd (List.inj_on_of_nodup_map once listed again rfl)

theorem declared (own : ∀ i < g.size, (g.node i).Declared)
    (represents : Represents g strips narrows o k) : (g.content o).Declared := by
  induction represents with
  | node inside => exact own _ inside
  | unnamed _ _ ih => exact ih.unnamed
  | ofType source listed ih =>
    refine ih.ofType ?_
    rw [← source.content copies]
    exact (copies.narrowed _ listed).2.2.2.2.2.1

/-- With more copies, those nodes that were there before stand for what they stood for. -/
theorem of_lt (strip : ∀ e ∈ more, e ∈ strips ∨ schemas.size ≤ e.2)
    (narrow : ∀ e ∈ further, e ∈ narrows ∨ schemas.size ≤ e.2)
    (represents : Represents g more further o k) (old : k < schemas.size) :
    Represents g strips narrows o k := by
  induction represents with
  | node inside => exact .node inside
  | unnamed _ listed ih =>
    have here := (strip _ listed).resolve_right (Nat.not_le_of_lt old)
    exact .unnamed (ih (copies.stripped _ here).1) here
  | ofType _ listed ih =>
    have here := (narrow _ listed).resolve_right (Nat.not_le_of_lt old)
    exact .ofType (ih (copies.narrowed _ here).1) here

end Represents

/-- Spots that a build comes to: origins that are built as wholes, unnamed copies in any category,
and other origins in the only one they have. -/
def Graph.Visitable (g : Graph) : Spot → Prop
  | .whole o => o.Shown
  | .part o category => o.Shown → (g.content o).categories = [category]

namespace Builder

def Represents (g : Graph) (b : Builder) : Origin → NodeId → Prop :=
  LinkedSchema.Represents g b.stripped b.narrowed

/-- What is built at the spot is remembered for the node in the category. -/
def Keyed (g : Graph) (b : Builder) (key : NodeId × Category) : Spot → Prop
  | .whole o => b.Represents g o key.1 ∧ key.2 = (g.content o).slot
  | .part o category => b.Represents g o key.1 ∧ key.2 = category

/-- The build has come to these spots and to no others. -/
structure Charts (g : Graph) (b : Builder) (met : List Spot) : Prop where
  copies : Copies g b.schemas b.stripped b.narrowed
  inside : ∀ e ∈ b.built, e.1.1 < b.schemas.size
  met_iff : ∀ x, g.Visitable x → (x ∈ met ↔ ∃ key t, b.Keyed g key x ∧ (key, t) ∈ b.built)

/-- A later state of the same builder, which has all copies made before. -/
structure Advances (b later : Builder) : Prop where
  stripped : b.stripped ⊆ later.stripped
  narrowed : b.narrowed ⊆ later.narrowed
  fileName : later.fileName = b.fileName

theorem Advances.refl (b : Builder) : b.Advances b := ⟨List.Subset.refl _, List.Subset.refl _, rfl⟩

theorem Advances.trans {d : Builder} (first : b.Advances c) (next : c.Advances d) :
    b.Advances d where
  stripped := List.Subset.trans first.stripped next.stripped
  narrowed := List.Subset.trans first.narrowed next.narrowed
  fileName := next.fileName.trans first.fileName

theorem Advances.represents (advances : b.Advances c) (represents : b.Represents g o k) :
    c.Represents g o k := represents.mono advances.stripped advances.narrowed

theorem Advances.keyed (advances : b.Advances c) {key : NodeId × Category} {x : Spot}
    (keyed : b.Keyed g key x) : c.Keyed g key x := by
  cases x with
  | whole o => exact keyed.imp_left advances.represents
  | part o category => exact keyed.imp_left advances.represents

namespace Charts

variable (charts : b.Charts g met)
include charts

/-- It does not matter for the charts what the types are, nor names, definitions and the root. -/
theorem aside (types : TypeGraph) (usedNames : UsedNames) (definitions : DefinitionsCache)
    (root : Option NodeId) : Charts g { b with types, usedNames, definitions, root } met :=
  ⟨charts.copies, charts.inside, charts.met_iff⟩

theorem reserved (inside : k < b.schemas.size)
    (fresh : ∀ x, g.Visitable x → (b.Keyed g (k, category) x ↔ x ∈ entered)) :
    (b.reserved k category).Charts g (entered ++ met) where
  copies := charts.copies
  inside := List.forall_mem_cons.mpr ⟨inside, charts.inside⟩
  met_iff := by
    intro x visitable
    rw [List.mem_append, ← fresh x visitable, charts.met_iff x visitable]
    constructor
    · rintro (keyed | ⟨key, t, keyed, listed⟩)
      · exact ⟨_, _, keyed, List.mem_cons_self⟩
      · exact ⟨key, t, keyed, List.mem_cons_of_mem _ listed⟩
    · rintro ⟨key, t, keyed, listed⟩
      rcases List.mem_cons.mp listed with here | old
      · cases here
        exact .inl keyed
      · exact .inr ⟨key, t, keyed, old⟩

/-- Copies come with no entries. -/
theorem copied (advances : b.Advances c) (copies : Copies g c.schemas c.stripped c.narrowed)
    (size : b.schemas.size ≤ c.schemas.size)
    (strip : ∀ e ∈ c.stripped, e ∈ b.stripped ∨ b.schemas.size ≤ e.2)
    (narrow : ∀ e ∈ c.narrowed, e ∈ b.narrowed ∨ b.schemas.size ≤ e.2)
    (built : c.built = b.built) : c.Charts g met where
  copies := copies
  inside e listed := by
    rw [built] at listed
    exact Nat.lt_of_lt_of_le (charts.inside e listed) size
  met_iff := by
    intro x visitable
    rw [charts.met_iff x visitable, built]
    have same : ∀ key t, (key, t) ∈ b.built → (b.Keyed g key x ↔ c.Keyed g key x) := by
      intro key t listed
      have old : ∀ o, c.Represents g o key.1 → b.Represents g o key.1 := fun o represents =>
        represents.of_lt charts.copies strip narrow (charts.inside _ listed)
      refine ⟨advances.keyed, fun keyed => ?_⟩
      cases x with
      | whole o => exact keyed.imp_left (old o)
      | part o category => exact keyed.imp_left (old o)
    -- entries are for nodes that were there before, so no spot is keyed anew
    constructor
    · rintro ⟨key, t, keyed, listed⟩
      exact ⟨key, t, (same key t listed).mp keyed, listed⟩
    · rintro ⟨key, t, keyed, listed⟩
      exact ⟨key, t, (same key t listed).mpr keyed, listed⟩

/-- What is remembered for a node and category tells whether the build has come to the spot. -/
theorem lookup_isSome_iff (names : g.NamesTypes) {key : NodeId × Category} {x : Spot}
    (visitable : g.Visitable x) (keyed : b.Keyed g key x) :
    (b.built.lookup key).isSome ↔ x ∈ met := by
  rw [charts.met_iff x visitable]
  constructor
  · intro found
    obtain ⟨t, found⟩ := Option.isSome_iff_exists.mp found
    exact ⟨key, t, keyed, mem_of_lookup found⟩
  · rintro ⟨other, t, again, listed⟩
    have same : key = other := by
      cases x with
      | whole o =>
        exact Prod.ext (keyed.1.node_eq charts.copies names again.1) (keyed.2.trans again.2.symm)
      | part o category =>
        exact Prod.ext (keyed.1.node_eq charts.copies names again.1) (keyed.2.trans again.2.symm)
    rw [Option.isSome_iff_ne_none]
    intro absent
    exact ne_of_lookup absent _ listed same.symm

theorem keyed_iff (represents : b.Represents g o k) (x : Spot) : b.Keyed g (k, category) x ↔
    (x = .whole o ∧ category = (g.content o).slot) ∨ x = .part o category := by
  constructor
  · intro keyed
    cases x with
    | whole p =>
      cases represents.origin_eq charts.copies keyed.1
      exact .inl ⟨rfl, keyed.2⟩
    | part p other =>
      cases represents.origin_eq charts.copies keyed.1
      exact .inr (congrArg (Spot.part o) keyed.2.symm)
  · rintro (⟨rfl, slot⟩ | rfl)
    · exact ⟨represents, slot⟩
    · exact ⟨represents, rfl⟩

/-- The type of a node in the only category it has is the type of the node. -/
theorem keyed_single (represents : b.Represents g o k)
    (only : (g.content o).categories = [category]) (x : Spot) :
    b.Keyed g (k, category) x ↔ x ∈ [.part o category, .whole o] := by
  have slot : (g.content o).slot = category := by simp only [Node.slot, only]
  simp [charts.keyed_iff represents, slot, or_comm]

/-- The type of a node of several categories is remembered under one where the node itself is never
built. -/
theorem keyed_several (shown : o.Shown) (represents : b.Represents g o k)
    (several : ∀ c, (g.content o).categories ≠ [c]) (x : Spot) (visitable : g.Visitable x) :
    b.Keyed g (k, .allOf) x ↔ x ∈ [.whole o] := by
  rw [charts.keyed_iff represents, List.mem_singleton, Node.slot_of_several several]
  constructor
  · rintro (⟨same, _⟩ | rfl)
    · exact same
    · exact (several _ (visitable shown)).elim
  · exact fun same => .inl ⟨same, rfl⟩

theorem keyed_unnamed (represents : b.Represents g (.unnamed o) k) (x : Spot)
    (visitable : g.Visitable x) :
    b.Keyed g (k, category) x ↔ x ∈ [.part (.unnamed o) category] := by
  rw [charts.keyed_iff represents, List.mem_singleton]
  constructor
  · rintro (⟨rfl, _⟩ | same)
    · exact visitable.elim
    · exact same
  · exact .inr

end Charts
end Builder

namespace Build

variable {bad : Fault → Builder → Prop}

/-- The unnamed copy of a node is found or made, and the build is nowhere else for that. -/
theorem ensures_strip_charts (charts : b.Charts g met) (shown : o.Shown)
    (represents : b.Represents g o k) :
    Ensures b (strip k) (fun copy later => b.Advances later ∧ later.Charts g met ∧
      later.Represents g (.unnamed o) copy) bad := by
  apply ensures_strip
  · intro copy found
    exact ⟨.refl b, charts, .unnamed represents (mem_of_lookup found)⟩
  · intro absent
    have copies := charts.copies.strip (represents.inside charts.copies)
      (represents.shown charts.copies shown) (ne_of_lookup absent)
    have advances : b.Advances { b with
        schemas := b.schemas.push (b.schemas.node k).unnamed
        stripped := (k, b.schemas.size) :: b.stripped } :=
      ⟨List.subset_cons_self _ _, List.Subset.refl _, rfl⟩
    refine ⟨advances, ?_, .unnamed (advances.represents represents) List.mem_cons_self⟩
    apply charts.copied advances copies
    · simp
    · intro e listed
      rcases List.mem_cons.mp listed with rfl | old
      · exact .inr (Nat.le_refl _)
      · exact .inl old
    · exact fun _ old => .inl old
    · rfl

/-- So it is with the copy for a type. -/
theorem ensures_narrow_charts (charts : b.Charts g met)
    (represents : b.Represents g o k) {type : Json} (text : type.isText = true)
    (listed : type ∈ (g.content o).typeList) :
    Ensures b (narrow k type) (fun copy later => b.Advances later ∧ later.Charts g met ∧
      later.Represents g (.ofType o type) copy) bad := by
  apply ensures_narrow
  · intro container
    cases type with
    | str name => cases container
    | _ => cases text
  · intro e found noList noObject
    have member := List.mem_of_find?_eq_some found
    have known : e.1.1 = k ∧ e.1.2.alike type = true := by simpa using List.find?_some found
    have same : e.1.2 = type := by
      refine (Json.eq_or_numbers_of_alike known.2 noList noObject).resolve_right ?_
      rintro ⟨_, number⟩
      cases type with
      | str name => cases number
      | _ => cases text
    have entry : ((k, type), e.2) ∈ b.narrowed := by
      rw [← known.1, ← same]
      exact member
    exact ⟨.refl b, charts, .ofType represents entry⟩
  · intro absent flat _
    have own : type ∈ (b.schemas.node k).typeList := by
      rwa [represents.content charts.copies]
    have copies := charts.copies.narrow (represents.inside charts.copies) own flat
      (unlike_of_find absent)
    have advances : b.Advances { b with
        schemas := b.schemas.push ((b.schemas.node k).ofType type)
        narrowed := ((k, type), b.schemas.size) :: b.narrowed } :=
      ⟨List.Subset.refl _, List.subset_cons_self _ _, rfl⟩
    refine ⟨advances, ?_, .ofType (advances.represents represents) List.mem_cons_self⟩
    apply charts.copied advances copies
    · simp
    · exact fun _ old => .inl old
    · intro e listed
      rcases List.mem_cons.mp listed with rfl | old
      · exact .inr (Nat.le_refl _)
      · exact .inl old
    · rfl

end Build
end LinkedSchema
