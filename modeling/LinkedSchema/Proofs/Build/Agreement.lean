import LinkedSchema.Proofs.Results
import LinkedSchema.Proofs.Build.Levels
/-! The build agrees with the plain translation: the type of a schema unfolds to the translation of
the schema, however the schema is shared and wherever its cycles lead. -/
namespace LinkedSchema

variable {g : Graph} {b : Builder} {t : TypeId} {n m : Node}

namespace Json

/-- A number is none of the types that rules ask for. -/
theorem no_type_of_number {v : Json} (number : v.number?.isSome) :
    v.isNull = false ∧ v.isArr = false ∧ ∀ text, v.isStr text = false := by
  cases v with
  | int x => exact ⟨rfl, rfl, fun _ => rfl⟩
  | float x => exact ⟨rfl, rfl, fun _ => rfl⟩
  | bool x => exact ⟨rfl, rfl, fun _ => rfl⟩
  | null => cases number
  | str text => cases number
  | arr items => cases number
  | obj entries => cases number

end Json

namespace Node

theorem Similar.trans {k : Node} (first : n.Similar m) (next : m.Similar k) : n.Similar k := by
  rcases first with rfl | ⟨type, rfl, hn, hm⟩
  · exact next
  · rcases next with rfl | ⟨other, rfl, _, hk⟩
    · exact .inr ⟨type, rfl, hn, hm⟩
    · exact .inr ⟨other, rfl, hn, hk⟩

theorem Similar.categories (similar : n.Similar m) : n.categories = m.categories := by
  rcases similar with rfl | ⟨type, rfl, hn, hm⟩
  · rfl
  · obtain ⟨null, list, names⟩ := Json.no_type_of_number hn
    obtain ⟨null', list', names'⟩ := Json.no_type_of_number hm
    have rules : Category.holds n = Category.holds { n with type } := by
      funext c
      cases c <;> simp [Category.holds, isScalar, isCompound, defaultMeets, isPlainObject,
        isUnnamedEnum, enumTypes, isEmpty, plainKeywords, null, null', list, list', names, names']
    unfold Node.categories
    rw [rules]

theorem Similar.formIn (similar : n.Similar m) (category : Category) :
    n.formIn category = m.formIn category := by
  rcases similar with rfl | ⟨type, rfl, hn, hm⟩
  · rfl
  · have none_listed : ∀ k : Node, k.type.number?.isSome → k.typeList = [] := by
      intro k number
      unfold typeList
      split
      · rename_i types list
        rw [list] at number
        cases number
      · rfl
    cases category with
    | union => simp only [Node.formIn, none_listed n hn, none_listed { n with type } hm]; rfl
    | _ => rfl

end Node

namespace Builder

theorem leaf_matches {form : Form TypeId} {s : Subschema} (leaf : s.leaf = some form) :
    ∃ expected, g.form (.schema s) = some expected ∧
      form.Matches Eq (b.Stands g) expected := by
  cases s with
  | node i => cases leaf
  | bool allowed =>
    cases leaf
    exact ⟨_, rfl, ⟨rfl, .value rfl, rfl, .nil, rfl, rfl, .none⟩⟩
  | bare v =>
    cases leaf
    exact ⟨_, rfl, ⟨rfl, .value rfl, rfl, .nil, rfl, rfl, .none⟩⟩

theorem Stands.similar {category : Category} (similar : n.Similar m)
    (stands : b.Stands g t (.part n category)) : b.Stands g t (.part m category) := by
  obtain ⟨i, inside, hidden, entry, same⟩ := stands
  exact ⟨i, inside, hidden, entry, same.trans similar⟩

/-- A node and one that is similar to it have types of the same form. -/
theorem matches_similar (similar : n.Similar m) {own : Form TypeId} {form : Form Subject}
    (made : n.form = some form) (agree : own.Matches Eq (b.Stands g) form) :
    ∃ expected, m.form = some expected ∧ own.Matches Eq (b.Stands g) expected := by
  have same := similar.categories
  by_cases several : ∀ c, n.categories ≠ [c]
  · rw [Node.form_of_several several] at made
    cases made
    refine ⟨_, Node.form_of_several (same ▸ several), ?_⟩
    have deprecated : n.deprecated = m.deprecated := by
      rcases similar with rfl | ⟨type, rfl, _⟩ <;> rfl
    obtain ⟨kind, params, old, supers, lower, upper, spread⟩ := agree
    refine ⟨kind, ?_, old.trans deprecated, supers, lower, upper, spread⟩
    cases h : own.params with
    | one u => rw [h] at params; cases params
    | value v => rw [h] at params; cases params
    | many parts =>
      rw [h] at params
      cases params with
      | many all =>
        simp only [List.map_map, List.forall₂_map_right_iff] at all
        refine .many ?_
        rw [← same, List.map_map, List.forall₂_map_right_iff]
        refine all.imp fun p c part => ?_
        cases part with
        | type stands => exact .type (stands.similar similar.unnamed)
  · obtain ⟨category, only⟩ := not_forall_not.mp several
    have single : ∀ k : Node, k.categories = [category] → k.form = k.formIn category := by
      intro k h
      simp only [Node.form, h]
    refine ⟨form, ?_, agree⟩
    rw [single m (same ▸ only), ← similar.formIn, ← single n only, made]

/-- When all entries are complete, a type has the form of what it stands for. -/
theorem stands_step {x : Subject} (sound : b.Sound g)
    (complete : ∀ e ∈ b.built, b.Complete g e) (stands : b.Stands g t x) :
    ∃ form, g.form x = some form ∧ (b.types.node t).form.Matches Eq (b.Stands g) form := by
  have held : ∀ i, b.Holds t i → ∃ form, (b.schemas.node i).form = some form ∧
      (b.types.node t).form.Matches Eq (b.Stands g) form := by
    rintro i ⟨_, shown, entry⟩
    obtain ⟨form, ⟨hidden, _⟩ | ⟨_, made⟩, agree⟩ := complete _ entry
    · exact absurd hidden shown
    · exact ⟨form, made, agree⟩
  cases x with
  | schema s =>
    cases s with
    | node i =>
      obtain ⟨form, made, agree⟩ := held i stands.2
      rw [sound.copies.kept i stands.1] at made
      exact ⟨form, made, agree⟩
    | bool allowed => exact leaf_matches stands.2.2
    | bare v => exact leaf_matches stands.2.2
  | whole n =>
    obtain ⟨i, holds, similar⟩ := stands
    obtain ⟨form, made, agree⟩ := held i holds
    exact matches_similar similar made agree
  | part n category =>
    obtain ⟨i, _, hidden, entry, similar⟩ := stands
    obtain ⟨form, ⟨_, made⟩ | ⟨shown, _⟩, agree⟩ := complete _ entry
    · exact ⟨form, (similar.formIn category).symm.trans made, agree⟩
    · exact absurd hidden shown

/-- A build with nothing remembered, over types that are there already. -/
def fresh (g : Graph) (types : TypeGraph) (fileName : Option String) : Builder :=
  { schemas := g, types, fileName }

theorem sound_fresh {types : TypeGraph} {fileName : Option String} (closed : g.Closed) :
    (fresh g types fileName).Sound g where
  copies := {
    kept _ _ := rfl
    size := rfl
    children := closed
    stripped := nofun
    narrowed := nofun
    origin _ h := .inl h
    strippedOnce := List.nodup_nil
    narrowedOnce := .nil }
  built := nofun
  builtOnce := List.nodup_nil

theorem Continues.all_complete {types : TypeGraph} {fileName : Option String} {later : Builder}
    (h : (fresh g types fileName).Continues g later) : ∀ e ∈ later.built, later.Complete g e := by
  intro e he
  rcases h.complete e he with old | ⟨_, complete⟩
  · cases old
  · exact complete

end Builder

/-- A build with nothing remembered returns the type of the schema. -/
theorem Build.stands_typeOf (closed : g.Closed) {s : Subschema} (below : s.Below g.size)
    {types : TypeGraph} {fileName keyName : Option String} {later : Builder}
    (run : Build.typeOf s keyName (.fresh g types fileName) = .ok t later) :
    (Builder.fresh g types fileName).Continues g later ∧ later.Stands g t (.schema s) := by
  have sound : (Builder.fresh g types fileName).Sound g := Builder.sound_fresh closed
  have built := Build.levels_reliable g (Build.depth g) _ s keyName sound (sound.admits below)
  obtain ⟨continues, shows⟩ := built.ok run
  exact ⟨continues, below, shows⟩

/-- The type that a build returns unfolds, at every depth, to the translation of the schema by
plain recursion. -/
theorem Build.unfold_typeOf (closed : g.Closed) {s : Subschema} (below : s.Below g.size)
    {types : TypeGraph} {fileName keyName : Option String} {later : Builder}
    (run : Build.typeOf s keyName (.fresh g types fileName) = .ok t later) (depth : Nat) :
    later.types.unfold depth t = g.plainTree depth (.schema s) := by
  obtain ⟨continues, stands⟩ := Build.stands_typeOf closed below run
  exact Graph.unfold_eq_plainTree
    (fun _ _ h => Builder.stands_step continues.sound continues.all_complete h) stands depth

/-- A node of two categories that leads back to itself, and to a node of two types that leads back
to it. -/
def Graph.knot : Graph := ⟨#[
  { allOf := some [.node 0, .node 1], anyOf := some [.bool true] },
  { type := .arr [.str "array", .str "null"], items := some (.each (.node 0)), parent := some 0 }]⟩

theorem Build.unfold_knot : ∃ t later,
    Build.typeOf (.node 0) none (.fresh .knot .empty none) = .ok t later ∧
    ∀ depth, later.types.unfold depth t = Graph.knot.plainTree depth (.schema (.node 0)) := by
  obtain ⟨t, later, run⟩ := exists_of_succeeds
    (show succeeds (Build.typeOf (.node 0) none (.fresh .knot .empty none)) = true by
      decide +kernel)
  exact ⟨t, later, run, Build.unfold_typeOf (by decide +kernel) (by decide) run⟩

end LinkedSchema
