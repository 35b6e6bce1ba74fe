import LinkedSchema.Proofs.Build.Leftovers
import LinkedSchema.Proofs.Build.Termination
/-! What types show of the steps that made them, where all that is remembered is settled or
abandoned: what no type can be made of leads to an unfilled type, and nothing else does. -/
namespace LinkedSchema

variable {g : Graph} {c : Builder} {n : Node} {i : NodeId} {t : TypeId} {x : Subject}
  {category : Category} {failed : Prop}

theorem Node.categories_ne_nil (n : Node) : n.categories ≠ [] := by
  unfold categories
  split
  · exact List.cons_ne_nil _ _
  · split
    · exact List.cons_ne_nil _ _
    · rename_i found
      exact found

/-- The type has no contents, or is an intersection without members. -/
def TypeGraph.Bare (types : TypeGraph) (t : TypeId) : Prop :=
  (types.node t).kind = none ∨
    ((types.node t).kind = some .intersection ∧ (types.node t).params = .many [])

namespace Graph

theorem unfold_ne_of_unfilled {types : TypeGraph} (unfilled : (types.node t).kind = none)
    (x : Subject) : types.unfold 1 t ≠ g.plainTree 1 x := by
  intro same
  unfold plainTree at same
  split at same
  · rename_i form made
    have kind : (types.node t).kind = form.kind := congrArg Form.kind (Tree.node.inj same)
    have filled := kind_of_form made
    rw [← kind, unfilled] at filled
    cases filled
  · cases same

theorem unfold_ne_of_memberless {types : TypeGraph} (memberless : (types.node t).params = .many [])
    {kind : Kind} {members : List Subject} (made : g.form x = some (n.collectionForm kind members))
    (some : members ≠ []) : types.unfold 1 t ≠ g.plainTree 1 x := by
  intro same
  simp only [TypeGraph.unfold, plainTree, made] at same
  have params := congrArg Form.params (Tree.node.inj same)
  simp only [Form.map, TypeNode.form, memberless, Node.collectionForm, Params.map, List.map_nil,
    Params.many.injEq] at params
  exact some (List.map_eq_nil_iff.mp (List.map_eq_nil_iff.mp params.symm))

end Graph

namespace Builder

/-- All that is remembered is settled, or abandoned if some step has failed, and the nodes of the
graph are as they were. -/
structure Accounts (g : Graph) (failed : Prop) (c : Builder) : Prop where
  kept : ∀ i < g.size, c.schemas.node i = g.node i
  entries : ∀ e ∈ c.built, c.Settled g e ∨ (failed ∧ c.Abandoned g e)

/-- The type has the form of the subject. -/
def Fulfils (g : Graph) (c : Builder) (t : TypeId) (x : Subject) : Prop :=
  g.CanName x ∧ ∃ form, g.form x = some form ∧
    (c.types.node t).form.Matches Eq (c.Stands g) form

/-- No type can be made of the subject, and the type shows that it was not filled. -/
def Betrays (g : Graph) (c : Builder) (t : TypeId) (x : Subject) : Prop :=
  g.Refuses x ∧ c.types.Bare t ∧ c.types.unfold 1 t ≠ g.plainTree 1 x

theorem Unfinished.bare {e : (NodeId × Category) × TypeId} (unfinished : c.Unfinished e) :
    c.types.Bare e.2 := unfinished.imp id fun h => h.2.2

theorem Abandoned.betrays_part (abandoned : c.Abandoned g ((i, category), t)) (hidden : c.Hidden i)
    (similar : (c.schemas.node i).Similar n) : c.Betrays g t (.part n category) := by
  obtain ⟨unfinished, ⟨_, refused⟩ | ⟨shown, _⟩⟩ := abandoned
  · refine ⟨refused.part_similar similar, unfinished.bare, ?_⟩
    rcases unfinished with unfilled | ⟨shown, _⟩
    · exact Graph.unfold_ne_of_unfilled unfilled _
    · exact absurd hidden shown
  · exact absurd hidden shown

theorem Abandoned.betrays_whole (abandoned : c.Abandoned g ((i, category), t))
    (shown : ¬ c.Hidden i) (similar : (c.schemas.node i).Similar n) : c.Betrays g t (.whole n) := by
  obtain ⟨unfinished, ⟨hidden, _⟩ | ⟨_, refused⟩⟩ := abandoned
  · exact absurd hidden shown
  · refine ⟨refused.whole_similar similar, unfinished.bare, ?_⟩
    rcases unfinished with unfilled | ⟨_, several, _, memberless⟩
    · exact Graph.unfold_ne_of_unfilled unfilled _
    · have made := Node.form_of_several (similar.categories ▸ several)
      refine Graph.unfold_ne_of_memberless memberless made fun none => ?_
      exact Node.categories_ne_nil n (List.map_eq_nil_iff.mp none)

section

variable (accounts : c.Accounts g failed)
include accounts

theorem Holds.fulfils_or (holds : c.Holds t i) (similar : (c.schemas.node i).Similar n) :
    c.Fulfils g t (.whole n) ∨ (failed ∧ c.Betrays g t (.whole n)) := by
  obtain ⟨_, shown, entry⟩ := holds
  rcases accounts.entries _ entry with ⟨nameable, form, own, agree⟩ | ⟨failed, abandoned⟩
  · rcases own with ⟨hidden, _⟩ | ⟨_, own⟩
    · exact absurd hidden shown
    · exact .inl ⟨similar.nameable.mp nameable, matches_similar similar own agree⟩
  · exact .inr ⟨failed, abandoned.betrays_whole shown similar⟩

/-- A type has the form of what it stands for, unless it was abandoned. -/
theorem Stands.fulfils_or (stands : c.Stands g t x) :
    c.Fulfils g t x ∨ (failed ∧ c.Betrays g t x) := by
  cases x with
  | schema s =>
    cases s with
    | bool allowed => exact .inl ⟨trivial, leaf_matches stands.2.2⟩
    | bare v => exact .inl ⟨trivial, leaf_matches stands.2.2⟩
    | node i =>
      obtain ⟨below, holds⟩ := stands
      -- a node of the graph and all of its content are one and the same subject
      rcases holds.fulfils_or accounts (.inl (accounts.kept i below)) with
        fulfils | ⟨failed, refused, bare, differs⟩
      · exact .inl fulfils
      · exact .inr ⟨failed, refused.of_same rfl Iff.rfl, bare, differs⟩
  | whole n =>
    obtain ⟨i, holds, similar⟩ := stands
    exact holds.fulfils_or accounts similar
  | part n category =>
    obtain ⟨i, _, hidden, entry, similar⟩ := stands
    rcases accounts.entries _ entry with ⟨nameable, form, own, agree⟩ | ⟨failed, abandoned⟩
    · rcases own with ⟨_, own⟩ | ⟨shown, _⟩
      · refine .inl ⟨similar.nameable.mp nameable, form, ?_, agree⟩
        exact (similar.formIn category).symm.trans own
      · exact absurd hidden shown
    · exact .inr ⟨failed, abandoned.betrays_part hidden similar⟩

/-- A type that stands for what no type can be made of leads to one that was not filled, and does
not unfold to the translation. -/
theorem Stands.spoilt (stands : c.Stands g t x) (refused : g.Refuses x) :
    failed ∧ (∃ u, c.types.Reaches t u ∧ c.types.Bare u) ∧
      ∃ depth, c.types.unfold depth t ≠ g.plainTree depth x := by
  -- the refusal is followed down to the first type that was abandoned
  induction refused generalizing t with
  | formless none =>
    rcases stands.fulfils_or accounts with ⟨_, form, made, _⟩ | ⟨failed, _, bare, differs⟩
    · rw [none] at made
      cases made
    · exact ⟨failed, ⟨t, .refl, bare⟩, 1, differs⟩
  | nameless nameless =>
    rcases stands.fulfils_or accounts with ⟨named, _⟩ | ⟨failed, _, bare, differs⟩
    · exact absurd named nameless
    · exact ⟨failed, ⟨t, .refl, bare⟩, 1, differs⟩
  | leads made refers _ ih =>
    rcases stands.fulfils_or accounts with ⟨_, form, own, agree⟩ | ⟨failed, _, bare, differs⟩
    · rw [made] at own
      cases own
      obtain ⟨u, edge, below, beside⟩ := exists_beside agree.references _ refers
      obtain ⟨failed, ⟨v, reached, bare⟩, depth, differs⟩ := ih below
      refine ⟨failed, ⟨v, .head edge reached, bare⟩, depth + 1, fun same => differs (beside _ _ ?_)⟩
      simp only [TypeGraph.unfold, Graph.plainTree, made] at same
      have listed := congrArg Form.references (Tree.node.inj same)
      rwa [Form.references_map, Form.references_map] at listed
    · exact ⟨failed, ⟨t, .refl, bare⟩, 1, differs⟩

/-- A type that stands for something else is filled, as all below it are, and unfolds to the
translation. -/
theorem Stands.unspoilt (stands : c.Stands g t x) (fine : ¬ g.Refuses x) :
    c.types.Filled t ∧ ∀ depth, c.types.unfold depth t = g.plainTree depth x := by
  have step : ∀ t x, c.Stands g t x ∧ ¬ g.Refuses x → ∃ form, g.form x = some form ∧
      (c.types.node t).form.Matches Eq (fun u y => c.Stands g u y ∧ ¬ g.Refuses y) form := by
    rintro t x ⟨stands, fine⟩
    rcases stands.fulfils_or accounts with ⟨_, form, made, agree⟩ | ⟨_, refused, _⟩
    · have below : ∀ y ∈ form.references, ∀ u, c.Stands g u y → c.Stands g u y ∧ ¬ g.Refuses y :=
        fun y refers u stands => ⟨stands, fun refused => fine (.leads made refers refused)⟩
      exact ⟨form, made, agree.of_references (forall₂_imp_mem agree.references.flip below).flip⟩
    · exact absurd refused fine
  refine ⟨fun u reached => ?_, Graph.unfold_eq_plainTree step ⟨stands, fine⟩⟩
  have standing : ∃ y, c.Stands g u y ∧ ¬ g.Refuses y := by
    induction reached with
    | refl => exact ⟨x, stands, fine⟩
    | tail _ edge ih =>
      obtain ⟨y, standing⟩ := ih
      obtain ⟨form, _, agree⟩ := step _ y standing
      exact exists_of_forall₂ agree.references _ edge
  obtain ⟨y, standing⟩ := standing
  obtain ⟨form, made, agree⟩ := step u y standing
  have kind : (c.types.node u).kind = form.kind := agree.kind
  rw [kind]
  exact Graph.kind_of_form made

end

end Builder
end LinkedSchema
