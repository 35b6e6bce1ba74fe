import LinkedSchema.Proofs.Build.Names
import LinkedSchema.Proofs.Build.Outcomes
import LinkedSchema.Proofs.Entries
import LinkedSchema.Proofs.Naming.Allocator
/-! Every step of a build gives names in order: what it adds, it adds with names that were free, and
what it has added by the end it leads to. -/
namespace LinkedSchema

variable {b c : Builder} {t : TypeId}

/-- A builder of the types of schemas that adds as a step should, from whatever state. -/
def Subbuild.Tidy (sub : Subbuild) : Prop :=
  ∀ b s keyName, Build.Ensures b (sub s keyName) (fun t later => b.Yields [t] none later)
    fun _ later => b.Adds later

namespace Build

variable {sub : Subbuild} {n : Node} {i : NodeId} {category : Category}
  {keyName key : Option String}
  {bad : Fault → Builder → Prop}

theorem yields_addType {n : TypeNode} (unnamed : n.standaloneName = none)
    (bare : n.references = []) :
    Ensures b (addType n) (fun t later => b.Yields [t] none later) bad :=
  Builder.Yields.push rfl rfl (List.Subset.refl _) (fun _ known => .inl known) unnamed bare

theorem yields_reserve :
    Ensures b (reserve i category) (fun t later => t = b.types.size ∧
      later.types.node t = {} ∧ t < later.types.size ∧ b.Yields [t] none later) bad := by
  refine ⟨rfl, TypeGraph.node_push_self _ _, by simp, ?_⟩
  refine Builder.Yields.push rfl rfl (List.subset_cons_self _ _) ?_ rfl rfl
  rintro t ⟨e, remembered, rfl⟩
  rcases List.mem_cons.mp remembered with rfl | old
  · exact .inr rfl
  · exact .inl ⟨e, old, rfl⟩

theorem shares_addNote {note : String} :
    Ensures b (addNote t note) (fun _ later => b.Shares later) bad := by
  have run : ∃ comment, addNote t note b = .ok () { b with
      types := b.types.set t { b.types.node t with comment } } := ⟨_, rfl⟩
  obtain ⟨comment, run⟩ := run
  exact ensures_of_ok run (.of_set rfl rfl)

theorem shares_definitionKey : Ensures b (definitionKey i) (fun _ later => b.Shares later) bad :=
  ensures_definitionKey fun _ _ => .of_same rfl rfl rfl

theorem shares_narrow {type : Json} :
    Ensures b (narrow i type) (fun _ later => b.Shares later) (fun _ later => b.Adds later) :=
  ensures_narrow (fun _ => (Builder.Shares.of_same rfl rfl rfl).adds)
    (fun _ _ _ _ => .of_same rfl rfl rfl) (fun _ _ _ => .of_same rfl rfl rfl)

theorem shares_strip : Ensures b (strip i) (fun _ later => b.Shares later) bad :=
  ensures_strip (fun _ _ => .of_same rfl rfl rfl) (fun _ => .of_same rfl rfl rfl)

theorem yields_standaloneName :
    Ensures b (standaloneName n key) (fun name later => b.Yields [] name later)
      (fun _ later => b.Adds later) := by
  have same : b.Shares b := .of_same rfl rfl rfl
  refine ensures_standaloneName (fun _ => same.yields) (fun _ text => ?_) fun _ => same.adds
  exact .take (UsedNames.fresh_not_mem _ _)

/-- Each need is met with a type, whether it was there before or not. -/
theorem yields_need (tidy : sub.Tidy) (need : Need) :
    Ensures b (need.build sub i) (fun t later => b.Yields [t] none later)
      (fun _ later => b.Adds later) := by
  cases need with
  | any keyName => exact yields_addType rfl rfl
  | value v => exact yields_addType rfl rfl
  | schema s keyName note =>
    cases note with
    | none => exact tidy b s keyName
    | some note =>
      apply (tidy b s keyName).bind
      intro t c made
      apply shares_addNote.bind
      intro _ d shares
      exact ensures_pure (made.andThen shares.yields)
  | copy type =>
    apply shares_narrow.bind
    intro copy c shares
    refine (tidy c _ none).imp (fun t d made => ?_) fun _ d adds => shares.adds.trans adds
    exact shares.yields.before made

theorem settled {α : Type} {x : Except Fault α} (adds : b.Adds c) :
    Ensures c (MonadExcept.ofExcept x) (fun _ later => c = later) fun _ later => b.Adds later :=
  ensures_ofExcept (fun _ _ => rfl) fun _ _ => adds

/-- The type made after a plan has the name that was taken for it, and refers to what was made for
it. -/
theorem yields_shape (tidy : sub.Tidy) :
    Ensures b (shape sub i category keyName)
      (fun n later => b.Yields n.references n.standaloneName later)
      (fun _ later => b.Adds later) := by
  rw [shape_eq_planned]
  apply shares_definitionKey.bind
  intro key c shares
  apply ensures_schema
  apply ensures_get
  apply (settled shares.adds).bind
  rintro plan _ rfl
  have named : Ensures c (standaloneName (c.schemas.node i) (category.nameKey keyName key))
      (fun name later => b.Yields [] name later) fun _ later => b.Adds later :=
    yields_standaloneName.imp (fun _ _ h => shares.yields.before h) fun _ _ h => shares.adds.trans h
  apply named.bind
  intro name d taken
  apply (settled taken.toAdds).bind
  rintro form _ rfl
  have each : ∀ need ∈ form.references, ∀ (_ : List Need) (made : List TypeId) e,
      b.Yields made name e → Ensures e (need.build sub i)
        (fun t later => b.Yields (made ++ [t]) name later) fun _ later => b.Adds later :=
    fun need _ _ _ _ kept => (yields_need tidy need).imp (fun _ _ h => kept.andThen h)
      fun _ _ h => kept.toAdds.trans h
  apply (ensures_traverse each taken).bind
  rintro form last ⟨made, _⟩
  exact ensures_pure made

theorem yields_inCategory (tidy : sub.Tidy) :
    Ensures b (inCategory sub i category keyName) (fun t later => b.Yields [t] none later)
      (fun _ later => b.Adds later) := by
  unfold inCategory
  apply ensures_built
  split
  · rename_i t found
    exact ensures_pure (.found ⟨_, mem_of_lookup found, rfl⟩)
  · apply yields_reserve.bind
    rintro t c ⟨rfl, unfilled, inside, reserved⟩
    have shaped : Ensures c (shape sub i category keyName)
        (fun n later => c.Adds later ∧
          b.Yields (b.types.size :: n.references) n.standaloneName later)
        fun _ later => b.Adds later :=
      (yields_shape tidy).imp (fun _ _ made => ⟨made.toAdds, reserved.before made⟩)
        fun _ _ adds => reserved.toAdds.trans adds
    apply shaped.bind
    rintro n d ⟨adds, made⟩
    obtain ⟨bare, unnamed⟩ := adds.keeps_blank inside unfilled
    apply ensures_fill
    refine ensures_pure (made.fill (Nat.le_refl _) ?_ bare rfl ?_ (.inl unnamed))
    · exact Nat.lt_of_lt_of_le inside adds.types
    · rw [unnamed]
      rfl

theorem yields_parts (tidy : sub.Tidy) (categories : List Category) :
    Ensures b (categories.mapM fun c => return Part.type (← inCategory sub i c keyName))
      (fun parts later => b.Yields (parts.filterMap Part.type?) none later)
      fun _ later => b.Adds later := by
  have each : ∀ category ∈ categories, ∀ (_ : List Category) (parts : List Part) c,
      b.Yields (parts.filterMap Part.type?) none c →
      Ensures c (do return Part.type (← inCategory sub i category keyName))
        (fun p later => b.Yields ((parts ++ [p]).filterMap Part.type?) none later)
        fun _ later => b.Adds later := by
    intro category _ _ parts c kept
    have one : Ensures c (inCategory sub i category keyName)
        (fun t later => b.Yields (parts.filterMap Part.type? ++ [t]) none later)
        fun _ later => b.Adds later :=
      (yields_inCategory tidy).imp (fun _ _ made => kept.andThen made)
        fun _ _ adds => kept.toAdds.trans adds
    apply one.bind
    intro t d made
    refine ensures_pure ?_
    rw [List.filterMap_append]
    exact made
  have start : b.Yields (List.filterMap Part.type? []) none b :=
    (Builder.Shares.of_same rfl rfl rfl).yields
  exact (ensures_mapM each start).imp (fun _ _ made => made.1) fun _ _ adds => adds

/-- What is done once the type of several categories has its name and refers to nothing yet. -/
theorem yields_combined (tidy : sub.Tidy) {categories : List Category}
    (opened : b.Yields [t] none c) (new : b.types.size ≤ t) (inside : t < c.types.size)
    (bare : (c.types.node t).references = []) :
    Ensures c (do
        let copy ← strip i
        let parts ← categories.mapM fun c => return Part.type (← inCategory sub copy c keyName)
        setParams t (.many parts)
        return t)
      (fun u later => b.Yields [u] none later) (fun _ later => b.Adds later) := by
  apply shares_strip.bind
  intro copy d shares
  have built : Ensures d
      (categories.mapM fun c => return Part.type (← inCategory sub copy c keyName))
      (fun parts later => c.Adds later ∧ b.Yields (t :: parts.filterMap Part.type?) none later)
      fun _ later => b.Adds later :=
    (yields_parts tidy categories).imp
      (fun _ _ made => ⟨shares.adds.trans made.toAdds, opened.andThen (shares.yields.before made)⟩)
      fun _ _ adds => opened.toAdds.trans (shares.adds.trans adds)
  apply built.bind
  rintro parts e ⟨adds, made⟩
  have still : (e.types.node t).references = [] := (adds.references_eq inside).trans bare
  apply ensures_setParams
  refine ensures_pure (made.fill new ?_ still ?_ (Option.or_none).symm (.inr rfl))
  · exact Nat.lt_of_lt_of_le inside adds.types
  · obtain ⟨others, spread⟩ := List.append_eq_nil_iff.mp still
    obtain ⟨_, superTypes⟩ := List.append_eq_nil_iff.mp others
    simp only [TypeNode.references, Params.types, superTypes, spread, List.append_nil]

theorem yields_combination (tidy : sub.Tidy) {categories : List Category} :
    Ensures b (combination sub i categories keyName) (fun t later => b.Yields [t] none later)
      (fun _ later => b.Adds later) := by
  unfold combination
  apply ensures_built
  split
  · rename_i t found
    exact ensures_pure (.found ⟨_, mem_of_lookup found, rfl⟩)
  · apply yields_reserve.bind
    rintro t c ⟨rfl, unfilled, inside, reserved⟩
    apply shares_definitionKey.bind
    intro key d shares
    apply ensures_schema
    have named : Ensures d (standaloneName (d.schemas.node i) key)
        (fun name later => c.Adds later ∧ b.Yields [b.types.size] name later)
        fun _ later => b.Adds later :=
      yields_standaloneName.imp
        (fun _ _ h => ⟨shares.adds.trans h.toAdds, reserved.before (shares.yields.before h)⟩)
        fun _ _ h => (reserved.toAdds.trans shares.adds).trans h
    apply named.bind
    rintro name e ⟨adds, taken⟩
    have there : b.types.size < e.types.size := Nat.lt_of_lt_of_le inside adds.types
    obtain ⟨bare, unnamed⟩ := adds.keeps_blank inside unfilled
    apply ensures_fill
    refine yields_combined tidy (taken.fill (Nat.le_refl _) there bare rfl ?_ (.inl unnamed))
      (Nat.le_refl _) ?_ ?_
    · rw [unnamed]
      rfl
    · rwa [TypeGraph.size_set]
    · rw [TypeGraph.node_set_self there]
      rfl

/-- What builds of any depth add is in order, from whatever state. -/
theorem levels_tidy (fuel : Nat) : (levels fuel).Tidy := by
  induction fuel with
  | zero => exact fun b s keyName => ensures_throw (Builder.Shares.of_same rfl rfl rfl).adds
  | succ fuel tidy =>
    intro b s keyName
    cases s with
    | bool allowed => exact yields_addType rfl rfl
    | bare v => exact yields_addType rfl rfl
    | node i =>
      apply ensures_noteRoot
      apply ensures_schema
      have shares : b.Shares { b with root := some (b.root.getD i) } := .of_same rfl rfl rfl
      split
      · exact (yields_inCategory tidy).imp (fun _ _ made => shares.yields.before made)
          fun _ _ adds => shares.adds.trans adds
      · exact (yields_combination tidy).imp (fun _ _ made => shares.yields.before made)
          fun _ _ adds => shares.adds.trans adds

end Build
end LinkedSchema
