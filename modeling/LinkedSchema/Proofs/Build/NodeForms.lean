import LinkedSchema.Proofs.Build.ShapeForms
/-! The types made for interfaces and for unions of types, and with them the type of a node in any
of its categories. -/
namespace LinkedSchema

variable {g : Graph} {b : Builder} {fuel : Nat} {sub : Subbuild} {n : Node} {i : NodeId}
  {keyName key name : Option String}

namespace Build

theorem meets_propertyMembers (reliable : sub.Reliable g fuel) (sound : b.Sound g)
    (below : ∀ s ∈ n.children, s.Below g.size) :
    Meets g fuel b (propertyMembers sub n)
      (fun members later => later.MembersMatch g members n.propertyForms) := by
  apply meets_members sound
  intro e he later continues
  apply (meets_sub reliable continues.sound (below _ (Node.property_mem_children he))).bind
  intro t last after stands
  exact meets_pure after.sound ⟨rfl, rfl, rfl, rfl, stands⟩

theorem meets_patternMembers (reliable : sub.Reliable g fuel) (sound : b.Sound g)
    (below : ∀ s ∈ n.children, s.Below g.size) :
    Meets g fuel b (patternMembers sub n name)
      (fun members later => later.MembersMatch g members n.patternForms) := by
  apply meets_members sound
  intro e he later continues
  apply (meets_sub reliable continues.sound (below _ (Node.pattern_mem_children he))).bind
  intro t last after stands
  apply (meets_addNote after.sound).bind
  intro _ final noted _
  split
  · exact meets_pure noted.sound ⟨rfl, rfl, rfl, rfl, noted.stands stands⟩
  · exact meets_pure noted.sound ⟨rfl, rfl, rfl, rfl, noted.stands stands⟩

theorem meets_definitionMembers (reliable : sub.Reliable g fuel) (sound : b.Sound g)
    (below : ∀ s ∈ n.children, s.Below g.size) :
    Meets g fuel b (definitionMembers sub n name)
      (fun members later => later.MembersMatch g members n.definitionForms) := by
  apply meets_members sound
  intro e he later continues
  apply (meets_sub reliable continues.sound (below _ (Node.definition_mem_children he))).bind
  intro t last after stands
  apply (meets_addNote after.sound).bind
  intro _ final noted _
  exact meets_pure noted.sound ⟨rfl, rfl, rfl, rfl, noted.stands stands⟩

theorem meets_additionalMembers (reliable : sub.Reliable g fuel) (sound : b.Sound g)
    (below : ∀ s ∈ n.children, s.Below g.size) :
    Meets g fuel b (additionalMembers sub n)
      (fun members later => later.MembersMatch g members n.additionalForms) := by
  have anything : Meets g fuel b
      (if hasSinglePattern n then return [] else do
        let type ← addType { kind := some .any, keyName := some indexKey }
        return [{ key := indexKey, type, isRequired := true }])
      (fun members later => later.MembersMatch g members
        (if hasSinglePattern n then []
        else [{ key := indexKey, type := .schema (.bool true), isRequired := true }])) := by
    split
    · exact meets_pure sound .nil
    · apply (meets_addType sound).bind
      intro t later continues made
      refine meets_pure continues.sound (.cons ⟨rfl, rfl, rfl, rfl, ?_⟩ .nil)
      exact ⟨trivial, made.1, congrArg some made.2.symm⟩
  unfold additionalMembers Node.additionalForms
  cases found : n.additionalProperties with
  | none => exact anything
  | some s =>
    cases s with
    | bool allowed =>
      cases allowed with
      | true => exact anything
      | false => exact meets_pure sound .nil
    | bare v => exact meets_pure sound .nil
    | node j =>
      have member : Subschema.node j ∈ n.children := by simp [Node.children, found]
      apply (meets_sub reliable sound (below _ member)).bind
      intro t later continues stands
      exact meets_pure continues.sound (.cons ⟨rfl, rfl, rfl, rfl, stands⟩ .nil)

theorem meets_superTypes (reliable : sub.Reliable g fuel) (sound : b.Sound g)
    (below : ∀ s ∈ n.children, s.Below g.size) :
    Meets g fuel b (superTypes sub n)
      (fun types later => List.Forall₂ (later.Stands g) types n.superForms) := by
  have each : ∀ bases, n.bases = some bases → Meets g fuel b
      (bases.toList.mapM fun s => sub s none)
      (fun types later => List.Forall₂ (later.Stands g) types (bases.toList.map .schema)) := by
    intro bases found
    have member : ∀ s ∈ bases.toList, s ∈ n.children := fun s h => by
      simp [Node.children, found, h]
    have all := meets_mapM (f := fun s => sub s none)
      (R := fun later t s => later.Stands g t (.schema s))
      (fun _ _ _ _ h stands => h.stands stands) sound
      (fun s h later continues => meets_sub reliable continues.sound (below s (member s h)))
    exact all.imp fun _ _ _ agree => List.forall₂_map_right_iff.mpr agree
  unfold superTypes Node.superForms
  cases found : n.bases with
  | none => exact meets_pure sound .nil
  | some bases =>
    cases bases with
    | null => exact each _ found
    | many bases => exact each _ found
    | one base =>
      cases base with
      | node j => exact each _ found
      | bare v => exact each _ found
      | bool allowed =>
        cases allowed with
        | true => exact each _ found
        | false => exact meets_pure sound .nil

theorem meets_interface (reliable : sub.Reliable g fuel) (sound : b.Sound g)
    (below : ∀ s ∈ n.children, s.Below g.size) :
    Meets g fuel b (interface sub n keyName key)
      (fun type later => later.Fits g type (some n.interfaceForm)) := by
  apply (meets_standaloneName sound).bind
  intro name named continues _
  unfold members
  rw [bind_assoc]
  apply (meets_propertyMembers reliable continues.sound below).bind
  intro properties b₁ h₁ match₁
  rw [bind_assoc]
  apply (meets_patternMembers reliable h₁.sound below).bind
  intro patterns b₂ h₂ match₂
  rw [bind_assoc]
  apply (meets_definitionMembers reliable h₂.sound below).bind
  intro definitions b₃ h₃ match₃
  rw [bind_assoc]
  apply (meets_additionalMembers reliable h₃.sound below).bind
  intro additional b₄ h₄ match₄
  rw [pure_bind]
  apply (meets_superTypes reliable h₄.sound below).bind
  intro types last h₅ match₅
  refine meets_pure h₅.sound ?_
  have all : last.MembersMatch g (properties ++ patterns ++ definitions ++ additional)
      (n.propertyForms ++ n.patternForms ++ n.definitionForms ++ n.additionalForms) := by
    refine List.rel_append (List.rel_append (List.rel_append ?_ ?_) ?_) ?_
    · exact h₅.members (h₄.members (h₃.members (h₂.members match₁)))
    · exact h₅.members (h₄.members (h₃.members match₂))
    · exact h₅.members (h₄.members match₃)
    · exact h₅.members match₄
  refine ⟨_, rfl, ⟨rfl, .many ?_, rfl, match₅, rfl, rfl, .none⟩⟩
  exact List.rel_map (fun _ _ m => .member m) all

theorem meets_union (reliable : sub.Reliable g fuel) (sound : b.Sound g)
    (inside : i < b.schemas.size) (same : n = b.schemas.node i) :
    Meets g fuel b (union sub n i keyName key) (fun type later => later.Fits g type
      (some (n.collectionForm .union (n.typeList.map fun type => .whole (n.ofType type))))) := by
  apply (meets_standaloneName sound).bind
  intro name later continues _
  have parts : Meets g fuel later
      (n.typeList.mapM fun type => do return Part.type (← sub (.node (← narrow i type)) none))
      (fun parts last => last.PartsMatch g parts
        (n.typeList.map fun type => .type (.whole (n.ofType type)))) := by
    apply meets_parts continues.sound
    intro type listed b₁ h₁
    have kept : b₁.schemas.node i = n := by
      rw [h₁.grows.node i (Nat.lt_of_lt_of_le inside continues.grows.schemas),
        continues.grows.node i inside, same]
    have inside₁ := Nat.lt_of_lt_of_le inside
      (Nat.le_trans continues.grows.schemas h₁.grows.schemas)
    apply (meets_narrow h₁.sound inside₁ (by rwa [kept])).bind
    rintro copy b₂ h₂ ⟨copied, shown, similar⟩
    rw [h₂.grows.node i inside₁, kept] at similar
    apply (reliable b₂ (.node copy) none h₂.sound ⟨copied, shown⟩).bind
    intro t b₃ h₃ holds
    refine meets_pure h₃.sound (.type ⟨copy, holds, ?_⟩)
    rwa [h₃.grows.node copy copied]
  apply parts.bind
  intro parts last after agree
  refine meets_pure after.sound (Builder.fits_collection ?_)
  rwa [List.map_map]

theorem meets_scalar (sound : b.Sound g) {kind : Kind} :
    Meets g fuel b (scalar n kind keyName key)
      (fun type later => later.Fits g type (some (n.bareForm kind))) := by
  apply (meets_standaloneName sound).bind
  intro name later continues _
  exact meets_pure continues.sound Builder.fits_scalar

theorem meets_customType (sound : b.Sound g) :
    Meets g fuel b (do return { ← scalar n .customType keyName key with params := .value n.tsType })
      (fun type later => later.Fits g type
        (some { n.bareForm .customType with params := .value n.tsType })) := by
  unfold scalar
  rw [bind_assoc]
  apply (meets_standaloneName sound).bind
  intro name later continues _
  exact meets_pure continues.sound (Builder.fits_described (.value rfl))

/-- The type made for a node in a category has the form that belongs there. -/
theorem meets_shape (reliable : sub.Reliable g fuel) (sound : b.Sound g)
    (inside : i < b.schemas.size) (category : Category) :
    Meets g fuel b (shape sub i category keyName)
      (fun type later => later.Fits g type ((b.schemas.node i).formIn category)) := by
  apply (meets_definitionKey sound).bind
  intro key b₁ h₁ _
  apply (meets_schema h₁.sound).bind
  rintro n b₂ h₂ rfl
  have kept : b₂.schemas.node i = b.schemas.node i := by
    rw [h₂.grows.node i (Nat.lt_of_lt_of_le inside h₁.grows.schemas), h₁.grows.node i inside]
  have inside₂ := Nat.lt_of_lt_of_le inside (Nat.le_trans h₁.grows.schemas h₂.grows.schemas)
  rw [← kept]
  have below := h₂.sound.copies.children i inside₂
  cases category with
  | allOf => exact meets_collection reliable h₂.sound fun s h => below s (by simp [Node.children, h])
  | anyOf => exact meets_collection reliable h₂.sound fun s h => below s (by simp [Node.children, h])
  | oneOf => exact meets_collection reliable h₂.sound fun s h => below s (by simp [Node.children, h])
  | any => exact meets_scalar h₂.sound
  | customType => exact meets_customType h₂.sound
  | namedEnum => exact meets_namedEnum h₂.sound
  | unnamedEnum => exact meets_unnamedEnum h₂.sound
  | namedSchema => exact meets_interface reliable h₂.sound below
  | unnamedSchema => exact meets_interface reliable h₂.sound below
  | reference =>
    apply (meets_get h₂.sound).bind
    rintro _ later continues _
    exact meets_throw continues.sound (by simp)
  | typedArray => exact meets_typedArray reliable h₂.sound below
  | untypedArray => exact meets_untypedArray h₂.sound
  | union => exact meets_union reliable h₂.sound inside₂ rfl
  | boolean => exact meets_scalar h₂.sound
  | null => exact meets_scalar h₂.sound
  | number => exact meets_scalar h₂.sound
  | object => exact meets_scalar h₂.sound
  | string => exact meets_scalar h₂.sound

end Build
end LinkedSchema
