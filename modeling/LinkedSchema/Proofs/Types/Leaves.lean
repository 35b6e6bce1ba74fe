import LinkedSchema.Proofs.Types.Form
/-! The leaves of a type, which are found through unions and unions of unions, and the values that
they list one by one. -/
namespace LinkedSchema
namespace TypeGraph

variable {g : TypeGraph} {t leaf : TypeId} {v w : Json}

/-- A type that is no union, or a leaf of one that a union is made of. -/
inductive Leaf (g : TypeGraph) : TypeId → TypeId → Prop where
  | self {t : TypeId} : (g.node t).kind ≠ some .union → Leaf g t t
  | member {t u leaf : TypeId} : (g.node t).kind = some .union → u ∈ (g.node t).params.types →
      Leaf g u leaf → Leaf g t leaf

/-- A value is listed by the literal of it, and a null by the type of nulls as well. -/
def ListsValue (n : TypeNode) (v : Json) : Prop :=
  (n.kind = some .literal ∧ n.params = .value v) ∨ (n.kind = some .null ∧ v = .null)

/-- A leaf of the type lists the value. -/
def Lists (g : TypeGraph) (t : TypeId) (v : Json) : Prop :=
  ∃ leaf, g.Leaf t leaf ∧ ListsValue (g.node leaf) v

theorem leaf_iff_eq (single : (g.node t).kind ≠ some .union) : g.Leaf t leaf ↔ leaf = t := by
  constructor
  · intro found
    cases found with
    | self => rfl
    | member union => exact absurd union single
  · rintro rfl
    exact .self single

theorem leaf_iff_member (union : (g.node t).kind = some .union) :
    g.Leaf t leaf ↔ ∃ u ∈ (g.node t).params.types, g.Leaf u leaf := by
  constructor
  · intro found
    cases found with
    | self single => exact absurd union single
    | member _ listed below => exact ⟨_, listed, below⟩
  · rintro ⟨u, listed, below⟩
    exact .member union listed below

theorem lists_iff_listsValue (single : (g.node t).kind ≠ some .union) :
    g.Lists t v ↔ ListsValue (g.node t) v := by
  simp only [Lists, leaf_iff_eq single, exists_eq_left]

theorem lists_literal (kind : (g.node t).kind = some .literal)
    (params : (g.node t).params = .value w) : g.Lists t v ↔ v = w := by
  rw [lists_iff_listsValue (by simp [kind])]
  simp [ListsValue, kind, params, eq_comm]

theorem lists_null (kind : (g.node t).kind = some .null) : g.Lists t v ↔ v = .null := by
  rw [lists_iff_listsValue (by simp [kind])]
  simp [ListsValue, kind]

theorem lists_union (kind : (g.node t).kind = some .union) :
    g.Lists t v ↔ ∃ u ∈ (g.node t).params.types, g.Lists u v := by
  simp only [Lists, leaf_iff_member kind]
  constructor
  · rintro ⟨leaf, ⟨u, listed, below⟩, lists⟩
    exact ⟨u, listed, leaf, below, lists⟩
  · rintro ⟨u, listed, leaf, below, lists⟩
    exact ⟨leaf, ⟨u, listed, below⟩, lists⟩

variable {β γ : Type} {R : TypeId → β → Prop} {same : Json → Json → Prop}

/-- A union lists what the forms that its members have list. -/
theorem lists_union_of_matches {form : Form β} {xs : List γ} {f : γ → β} {lists : γ → Prop}
    (kind : form.kind = some .union) (params : form.params = .many ((xs.map f).map .type))
    (agree : (g.node t).form.Matches same R form)
    (each : ∀ u, ∀ x ∈ xs, R u (f x) → (g.Lists u v ↔ lists x)) :
    g.Lists t v ↔ ∃ x ∈ xs, lists x := by
  have union : (g.node t).kind = some .union := agree.kind.trans kind
  have members : List.Forall₂ (fun u x => R u (f x)) (g.node t).params.types xs := by
    have related := agree.params.types
    rw [params, Params.types_type] at related
    exact List.forall₂_map_right_iff.mp related
  rw [lists_union union]
  constructor
  · rintro ⟨u, listed, found⟩
    obtain ⟨x, hx, related, _⟩ := @exists_beside _ _ Unit _ _ _ members.flip u listed
    exact ⟨x, hx, (each u x hx related).mp found⟩
  · rintro ⟨x, hx, found⟩
    obtain ⟨u, listed, related, _⟩ := @exists_beside _ _ Unit _ _ _ members x hx
    exact ⟨u, listed, (each u x hx related).mpr found⟩

end TypeGraph
end LinkedSchema
