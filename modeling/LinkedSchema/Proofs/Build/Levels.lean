import LinkedSchema.Build.TypeOf
import LinkedSchema.Proofs.Build.Filling
/-! Every level of a build is a reliable builder: from a sound state it makes the type of a schema,
complete or reserved, and it spends no more fuel than it adds entries. -/
namespace LinkedSchema

variable {g : Graph} {b : Builder} {fuel : Nat} {sub : Subbuild} {i : NodeId} {t : TypeId}
  {category : Category} {keyName : Option String}

namespace Node

variable {n : Node}

theorem form_of_several (several : ∀ c, n.categories ≠ [c]) :
    n.form = some (n.collectionForm .intersection (n.categories.map (.part n.unnamed))) := by
  unfold Node.form
  split
  · rename_i c only
    exact (several c only).elim
  · rfl

theorem slot_of_several (several : ∀ c, n.categories ≠ [c]) : n.slot = .allOf := by
  unfold Node.slot
  split
  · rename_i c only
    exact (several c only).elim
  · rfl

end Node

namespace Build

theorem built_apply_bind {α : Type} (f : Option TypeId → Build α) :
    (built? i category >>= f) b = f (b.built.lookup (i, category)) b := rfl

theorem meets_found {rest : Build TypeId} (sound : b.Sound g)
    (found : b.built.lookup (i, category) = some t) :
    Meets g fuel b (built? i category >>= fun
      | some t => return t
      | none => rest) (fun t later => ((i, category), t) ∈ later.built) := by
  have run : (built? i category >>= fun
      | some t => return t
      | none => rest) b = .ok t b := by
    rw [built_apply_bind, found]
    rfl
  exact meets_of_ok run (.refl sound) (mem_of_lookup found)

theorem meets_made {rest : Build TypeId} {post : TypeId → Builder → Prop}
    (absent : b.built.lookup (i, category) = none) (made : Meets g fuel b rest post) :
    Meets g fuel b (built? i category >>= fun
      | some t => return t
      | none => rest) post := by
  unfold Meets at made ⊢
  rwa [built_apply_bind, absent]

/-- A copy may be built in any category, and any other node in the only one it has. -/
def Proper (b : Builder) (i : NodeId) (category : Category) : Prop :=
  b.Hidden i ∨ (¬ b.Hidden i ∧ (b.schemas.node i).categories = [category])

theorem complete_of_fits {n : TypeNode} {later : Builder} (proper : Proper b i category)
    (grows : b.Grows later) (inside : i < b.schemas.size)
    (form : (later.types.node t).form = n.form)
    (fits : later.Fits g n ((b.schemas.node i).formIn category)) :
    later.Complete g ((i, category), t) := by
  obtain ⟨f, made, agree⟩ := fits
  refine ⟨f, ?_, by rwa [form]⟩
  rw [grows.hidden_iff inside, grows.node i inside]
  rcases proper with hidden | ⟨shown, only⟩
  · exact .inl ⟨hidden, made⟩
  · refine .inr ⟨shown, ?_⟩
    simp only [Node.form, only]
    exact made

theorem reserved_open : (b.reserved i category).Open b.types.size := by
  refine Builder.open_of_kind (.inl ?_)
  exact congrArg TypeNode.kind (TypeGraph.node_push_self _ _)

theorem reserved_inside : b.types.size < (b.reserved i category).types.size := by
  simp [Builder.reserved]

theorem meets_inCategory (reliable : sub.Reliable g fuel) (sound : b.Sound g)
    (inside : i < b.schemas.size) (proper : Proper b i category) :
    Meets g (fuel + 1) b (inCategory sub i category keyName)
      (fun t later => ((i, category), t) ∈ later.built) := by
  cases found : b.built.lookup (i, category) with
  | some t => exact meets_found sound found
  | none =>
    apply meets_made found
    apply meets_reserve
    have begun := Builder.sound_reserved sound inside found
    apply fills_bind (.refl begun) (meets_shape reliable begun inside category)
    intro n later continues fills fits
    have isOpen := continues.opened reserved_inside reserved_open
    have filled := Nat.lt_of_lt_of_le reserved_inside continues.grows.types
    apply fills_fill fills reserved_inside isOpen rfl
    intro last
    refine fills_pure last ⟨rfl, ?_⟩
    refine complete_of_fits proper (Builder.grows_reserved.trans last.grows) inside
      (Builder.form_filled_self filled n) ?_
    obtain ⟨form, made, agree⟩ := fits
    exact ⟨form, made, agree.imp fun _ _ => isOpen.stands_filled n⟩

theorem meets_categories (reliable : sub.Reliable g fuel) (sound : b.Sound g) {copy : NodeId}
    (inside : copy < b.schemas.size) (hidden : b.Hidden copy) {n : Node}
    (same : b.schemas.node copy = n) {categories : List Category} :
    Meets g (fuel + 1) b
      (categories.mapM fun c => return Part.type (← inCategory sub copy c keyName))
      (fun parts later => later.PartsMatch g parts
        ((categories.map (Subject.part n)).map .type)) := by
  rw [List.map_map]
  apply meets_parts sound
  intro c _ b₁ h₁
  have inside₁ := Nat.lt_of_lt_of_le inside h₁.grows.schemas
  have hidden₁ := (h₁.grows.hidden_iff inside).mpr hidden
  apply (meets_inCategory reliable h₁.sound inside₁ (.inl hidden₁)).bind
  intro t b₂ h₂ entry
  refine meets_pure h₂.sound (.type ⟨copy, ?_, ?_, entry, ?_⟩)
  · exact Nat.lt_of_lt_of_le inside₁ h₂.grows.schemas
  · exact (h₂.grows.hidden_iff inside₁).mpr hidden₁
  · rw [h₂.grows.node copy inside₁, h₁.grows.node copy inside, same]
    exact .refl n

theorem meets_combination (reliable : sub.Reliable g fuel) (sound : b.Sound g)
    (inside : i < b.schemas.size) (shown : ¬ b.Hidden i)
    (several : ∀ c, (b.schemas.node i).categories ≠ [c]) :
    Meets g (fuel + 1) b (combination sub i (b.schemas.node i).categories keyName)
      (fun t later => ((i, Category.allOf), t) ∈ later.built) := by
  cases found : b.built.lookup (i, Category.allOf) with
  | some t => exact meets_found sound found
  | none =>
    apply meets_made found
    apply meets_reserve
    have begun := Builder.sound_reserved sound inside found
    apply fills_bind (.refl begun) (meets_definitionKey begun)
    intro key b₁ h₁ f₁ _
    apply fills_bind f₁ (meets_schema h₁.sound)
    rintro n b₂ h₂ f₂ rfl
    apply fills_bind f₂ (meets_standaloneName h₂.sound)
    intro name b₃ h₃ f₃ _
    have kept : b₂.schemas.node i = b.schemas.node i := f₂.grows.node i inside
    rw [kept]
    have open₃ := (h₁.trans (h₂.trans h₃)).opened reserved_inside reserved_open
    have inside₃ := Nat.lt_of_lt_of_le reserved_inside f₃.grows.types
    apply fills_fill f₃ reserved_inside open₃ rfl
    intro f₄
    have inside₄ := Nat.lt_of_lt_of_le reserved_inside f₄.grows.types
    have shown₄ := mt (f₄.grows.hidden_iff inside).mp shown
    apply fills_bind f₄ (meets_strip f₄.sound (Nat.lt_of_lt_of_le inside f₄.grows.schemas) shown₄)
    rintro copy b₅ h₅ f₅ ⟨copied, hidden, same⟩
    rw [f₅.grows.node i inside] at same
    apply fills_bind f₅ ((meets_categories reliable f₅.sound copied hidden same).lower
      (Nat.le_succ fuel))
    intro parts b₆ h₆ f₆ agree
    have open₆ := (h₅.trans h₆).opened inside₄ (Builder.open_filled inside₃ rfl)
    have kept₆ := (h₅.trans h₆).keeps _ inside₄
    rw [Builder.form_filled_self inside₃] at kept₆
    apply fills_fill f₆ reserved_inside open₆ rfl
    intro last
    refine fills_pure last ⟨rfl, ?_⟩
    have grows := Builder.grows_reserved.trans last.grows
    refine ⟨(b.schemas.node i).collectionForm .intersection
      ((b.schemas.node i).categories.map (.part (b.schemas.node i).unnamed)), .inr ⟨?_, ?_⟩, ?_⟩
    · exact mt (grows.hidden_iff inside).mp shown
    · rw [grows.node i inside, Node.form_of_several several]
    · rw [Builder.form_filled_self (Nat.lt_of_lt_of_le reserved_inside f₆.grows.types)]
      have form : ({ b₆.types.node b.types.size with params := .many parts } : TypeNode).form =
          { (b₆.types.node b.types.size).form with params := .many parts } := rfl
      rw [form, kept₆]
      refine ⟨rfl, .many ?_, rfl, .nil, rfl, rfl, .none⟩
      exact agree.imp fun _ _ part => part.imp fun _ _ => open₆.stands_filled _

/-- A level that builds on a reliable builder is reliable, with one more unit of fuel. -/
theorem level_reliable (reliable : sub.Reliable g fuel) :
    Subbuild.Reliable g (fuel + 1) (level sub) := by
  intro b s keyName sound admitted
  cases s with
  | bool allowed =>
    exact (meets_addType sound).imp fun _ _ _ made => ⟨made.1, congrArg some made.2.symm⟩
  | bare v =>
    exact (meets_addType sound).imp fun _ _ _ made => ⟨made.1, congrArg some made.2.symm⟩
  | node i =>
    obtain ⟨inside, shown⟩ := admitted
    apply (meets_noteRoot sound).bind
    intro _ b₁ h₁ _
    have inside₁ := Nat.lt_of_lt_of_le inside h₁.grows.schemas
    apply (meets_schema h₁.sound).bind
    rintro _ b₂ h₂ rfl
    have inside₂ := Nat.lt_of_lt_of_le inside₁ h₂.grows.schemas
    have shown₂ := mt ((h₁.trans h₂).grows.hidden_iff inside).mp shown
    have holds : ∀ (t : TypeId) (later : Builder), b₂.Continues g later →
        ((i, (b₂.schemas.node i).slot), t) ∈ later.built → later.Shows t (.node i) := by
      intro t later continues entry
      refine ⟨Nat.lt_of_lt_of_le inside₂ continues.grows.schemas, ?_, ?_⟩
      · exact mt (continues.grows.hidden_iff inside₂).mp shown₂
      · rwa [continues.grows.node i inside₂]
    split
    · rename_i category only
      apply (meets_inCategory reliable h₂.sound inside₂ (.inr ⟨shown₂, only⟩)).imp
      intro t later continues entry
      refine holds t later continues ?_
      simpa only [Node.slot, only] using entry
    · rename_i several
      apply (meets_combination reliable h₂.sound inside₂ shown₂ several).imp
      intro t later continues entry
      refine holds t later continues ?_
      rwa [Node.slot_of_several several]

theorem levels_reliable (g : Graph) : ∀ fuel, (levels fuel).Reliable g fuel := by
  intro fuel
  induction fuel with
  | zero =>
    intro b s keyName sound _
    exact ⟨sound, fun _ => Nat.le_refl _⟩
  | succ fuel ih => exact level_reliable ih

end Build
end LinkedSchema
