import LinkedSchema.Build.TypeOf
/-! More fuel changes no outcome but that of having run out of it. -/
namespace LinkedSchema

variable {α β : Type} {sub more : Subbuild} {n : Node} {i : NodeId} {category : Category}
  {keyName key name : Option String}

namespace Build

/-- Runs out of fuel, or does what the other step does. -/
def Refines (less full : Build α) : Prop :=
  ∀ b, (∃ later, less b = .error .outOfFuel later) ∨ less b = full b

theorem Refines.refl (step : Build α) : step.Refines step := fun _ => .inr rfl

theorem Refines.trans {first second third : Build α} (h : first.Refines second)
    (k : second.Refines third) : first.Refines third := by
  intro b
  rcases h b with spent | same
  · exact .inl spent
  · rw [same]
    exact k b

theorem Refines.bind {less full : Build α} {next last : α → Build β} (h : less.Refines full)
    (rest : ∀ a, (next a).Refines (last a)) : (less >>= next).Refines (full >>= last) := by
  intro b
  rcases h b with ⟨later, spent⟩ | same
  · refine .inl ⟨later, ?_⟩
    show EStateM.bind less next b = _
    simp only [EStateM.bind, spent]
  · show (∃ later, EStateM.bind less next b = _) ∨ EStateM.bind less next b = EStateM.bind full last b
    simp only [EStateM.bind, same]
    cases full b with
    | ok a later => exact rest a later
    | error e later => exact .inr rfl

theorem Refines.mapM {f g : α → Build β} (each : ∀ a, (f a).Refines (g a)) (xs : List α) :
    (xs.mapM f).Refines (xs.mapM g) := by
  induction xs with
  | nil => exact .refl _
  | cons x xs ih =>
    rw [List.mapM_cons, List.mapM_cons]
    exact (each x).bind fun _ => ih.bind fun _ => .refl _

end Build

def Subbuild.Refines (less full : Subbuild) : Prop :=
  ∀ s keyName, (less s keyName).Refines (full s keyName)

namespace Build

section

variable (subs : Subbuild.Refines sub more)
include subs

theorem refines_typesOf (members : List Subschema) :
    (typesOf sub members).Refines (typesOf more members) :=
  .mapM (fun s => (subs s none).bind fun _ => .refl _) members

theorem refines_collection {kind : Kind} {members : List Subschema} :
    (collection sub n kind members keyName key).Refines
      (collection more n kind members keyName key) := by
  unfold collection
  exact (Refines.refl _).bind fun _ => (refines_typesOf subs members).bind fun _ => .refl _

theorem refines_spreadOf (additional : Option Subschema) :
    (spreadOf sub additional).Refines (spreadOf more additional) := by
  unfold spreadOf
  split
  · exact .refl _
  · exact (subs _ _).bind fun _ => .refl _
  · exact .refl _

theorem refines_typedArray :
    (typedArray sub n keyName key).Refines (typedArray more n keyName key) := by
  unfold typedArray
  refine (Refines.refl _).bind fun _ => ?_
  split
  · exact (refines_typesOf subs _).bind fun _ => (refines_spreadOf subs _).bind fun _ => .refl _
  · exact (subs _ _).bind fun _ => .refl _
  · exact (subs _ _).bind fun _ => .refl _

theorem refines_additionalMembers :
    (additionalMembers sub n).Refines (additionalMembers more n) := by
  unfold additionalMembers
  split
  · exact .refl _
  · exact .refl _
  · exact (subs _ _).bind fun _ => .refl _
  · exact .refl _

theorem refines_members : (members sub n name).Refines (members more n name) := by
  unfold members
  have properties : (propertyMembers sub n).Refines (propertyMembers more n) :=
    .mapM (fun e : String × Subschema => (subs e.2 (some e.1)).bind fun _ => .refl _) _
  have patterns : (patternMembers sub n name).Refines (patternMembers more n name) :=
    .mapM (fun e : String × Subschema => (subs e.2 (some e.1)).bind fun _ => .refl _) _
  have definitions : (definitionMembers sub n name).Refines (definitionMembers more n name) :=
    .mapM (fun e : String × Subschema => (subs e.2 (some e.1)).bind fun _ => .refl _) _
  refine properties.bind fun _ => patterns.bind fun _ => definitions.bind fun _ => ?_
  exact (refines_additionalMembers subs).bind fun _ => .refl _

theorem refines_superTypes : (superTypes sub n).Refines (superTypes more n) := by
  unfold superTypes
  split
  · exact .refl _
  · exact .mapM (fun s => subs s none) _
  · exact .refl _

theorem refines_interface :
    (interface sub n keyName key).Refines (interface more n keyName key) := by
  unfold interface
  refine (Refines.refl _).bind fun _ => (refines_members subs).bind fun _ => ?_
  exact (refines_superTypes subs).bind fun _ => .refl _

theorem refines_union : (union sub n i keyName key).Refines (union more n i keyName key) := by
  unfold union
  refine (Refines.refl _).bind fun _ => ?_
  refine (Refines.mapM (fun type => ?_) _).bind fun _ => .refl _
  exact (Refines.refl _).bind fun _ => (subs _ _).bind fun _ => .refl _

theorem refines_shape : (shape sub i category keyName).Refines (shape more i category keyName) := by
  unfold shape
  refine (Refines.refl _).bind fun key => (Refines.refl _).bind fun n => ?_
  cases category with
  | allOf => exact refines_collection subs
  | anyOf => exact refines_collection subs
  | oneOf => exact refines_collection subs
  | namedSchema => exact refines_interface subs
  | unnamedSchema => exact refines_interface subs
  | typedArray => exact refines_typedArray subs
  | union => exact refines_union subs
  | _ => exact .refl _

theorem refines_inCategory :
    (inCategory sub i category keyName).Refines (inCategory more i category keyName) := by
  unfold inCategory
  refine (Refines.refl _).bind fun found => ?_
  split
  · exact .refl _
  · exact (Refines.refl _).bind fun _ => (refines_shape subs).bind fun _ => .refl _

theorem refines_combination {categories : List Category} :
    (combination sub i categories keyName).Refines (combination more i categories keyName) := by
  unfold combination
  refine (Refines.refl _).bind fun found => ?_
  split
  · exact .refl _
  · refine (Refines.refl _).bind fun _ => (Refines.refl _).bind fun _ => ?_
    refine (Refines.refl _).bind fun _ => (Refines.refl _).bind fun _ => ?_
    refine (Refines.refl _).bind fun _ => (Refines.refl _).bind fun _ => ?_
    refine (Refines.mapM (fun c => ?_) _).bind fun _ => .refl _
    exact (refines_inCategory subs).bind fun _ => .refl _

theorem refines_level : Subbuild.Refines (level sub) (level more) := by
  intro s keyName
  unfold level
  split
  · exact .refl _
  · exact .refl _
  · refine (Refines.refl _).bind fun _ => (Refines.refl _).bind fun _ => ?_
    split
    · exact refines_inCategory subs
    · exact refines_combination subs

end

theorem refines_levels_succ : ∀ fuel, Subbuild.Refines (levels fuel) (levels (fuel + 1)) := by
  intro fuel
  induction fuel with
  | zero => exact fun _ _ b => .inl ⟨b, rfl⟩
  | succ fuel ih => exact refines_level ih

theorem refines_levels {fuel full : Nat} (le : fuel ≤ full) :
    Subbuild.Refines (levels fuel) (levels full) := by
  induction le with
  | refl => exact fun _ _ => .refl _
  | step _ ih => exact fun s keyName => (ih s keyName).trans (refines_levels_succ _ s keyName)

end Build
end LinkedSchema
