import LinkedSchema.Proofs.Build.Copying
/-! The types made in the categories have the forms of the plain translation, given that the types
of other schemas come from a builder that meets its contract. -/
namespace LinkedSchema

variable {g : Graph} {b : Builder} {fuel : Nat} {sub : Subbuild} {n : Node} {i : NodeId}
  {keyName key : Option String}

/-- A schema that may be built: its node is there, and is no unnamed copy. -/
def Builder.Admits (b : Builder) : Subschema → Prop
  | .node i => i < b.schemas.size ∧ ¬ b.Hidden i
  | _ => True

/-- A builder that makes the type of every schema, from every sound state. -/
def Subbuild.Reliable (g : Graph) (fuel : Nat) (sub : Subbuild) : Prop :=
  ∀ (b : Builder) (s : Subschema) (keyName : Option String), b.Sound g → b.Admits s →
    Build.Meets g fuel b (sub s keyName) (fun t later => later.Shows t s)

/-- The type node has that form, if it is one. -/
def Builder.Fits (g : Graph) (later : Builder) (n : TypeNode) (form : Option (Form Subject)) :
    Prop :=
  ∃ f, form = some f ∧ n.form.Matches Eq (later.Stands g) f

/-- Parts that match those of a form. -/
abbrev Builder.PartsMatch (g : Graph) (later : Builder) (parts : List Part)
    (expected : List (Part Subject)) : Prop :=
  List.Forall₂ (Part.Matches Eq (later.Stands g)) parts expected

abbrev Builder.MembersMatch (g : Graph) (later : Builder) (members : List Member)
    (expected : List (Member Subject)) : Prop :=
  List.Forall₂ (Member.Matches (later.Stands g)) members expected

namespace Builder

theorem Sound.admits (sound : b.Sound g) {s : Subschema} (below : s.Below g.size) :
    b.Admits s := by
  cases s with
  | node i =>
    exact ⟨Nat.lt_of_lt_of_le below sound.copies.size_le, sound.copies.shown_of_lt below⟩
  | bool x => trivial
  | bare v => trivial

theorem Continues.parts {later : Builder} (h : b.Continues g later) {parts : List Part}
    {expected : List (Part Subject)} (agree : b.PartsMatch g parts expected) :
    later.PartsMatch g parts expected :=
  agree.imp fun _ _ part => part.imp fun _ _ => h.stands

theorem Continues.members {later : Builder} (h : b.Continues g later) {members : List Member}
    {expected : List (Member Subject)} (agree : b.MembersMatch g members expected) :
    later.MembersMatch g members expected :=
  agree.imp fun _ _ m => { m with type := h.stands m.type }

theorem fits_described {later : Builder} {kind : Kind} {name : Option String} {params : Params}
    {expected : Params Subject} (agree : params.Matches Eq (later.Stands g) expected) :
    later.Fits g { n.describe kind keyName name with params }
      (some { n.bareForm kind with params := expected }) :=
  ⟨_, rfl, ⟨rfl, agree, rfl, .nil, rfl, rfl, .none⟩⟩

theorem fits_scalar {later : Builder} {kind : Kind} {name : Option String} :
    later.Fits g (n.describe kind keyName name) (some (n.bareForm kind)) :=
  ⟨_, rfl, ⟨rfl, .value rfl, rfl, .nil, rfl, rfl, .none⟩⟩

theorem fits_collection {later : Builder} {kind : Kind} {name : Option String}
    {parts : List Part} {members : List Subject}
    (agree : later.PartsMatch g parts (members.map .type)) :
    later.Fits g { n.describe kind keyName name with params := .many parts }
      (some (n.collectionForm kind members)) :=
  fits_described (.many agree)

end Builder

namespace Build

theorem meets_sub (reliable : sub.Reliable g fuel) (sound : b.Sound g) {s : Subschema}
    (below : s.Below g.size) :
    Meets g fuel b (sub s keyName) (fun t later => later.Stands g t (.schema s)) :=
  (reliable b s keyName sound (sound.admits below)).imp fun _ _ _ shows => ⟨below, shows⟩

theorem meets_addAny (sound : b.Sound g) :
    Meets g fuel b addAny (fun t later => later.Stands g t (.schema (.bool true))) :=
  (meets_addType sound).imp fun _ _ _ made => ⟨trivial, made.1, congrArg some made.2.symm⟩

theorem meets_literal {v : Json} (sound : b.Sound g) :
    Meets g fuel b (addType (literal keyName v))
      (fun t later => later.Stands g t (.schema (.bare v))) :=
  (meets_addType sound).imp fun _ _ _ made => ⟨trivial, made.1, congrArg some made.2.symm⟩

theorem meets_parts {α : Type} {f : α → Build Part} {part : α → Part Subject} {xs : List α}
    (sound : b.Sound g)
    (each : ∀ a ∈ xs, ∀ later, b.Continues g later →
      Meets g fuel later (f a) (fun p last => p.Matches Eq (last.Stands g) (part a))) :
    Meets g fuel b (xs.mapM f) (fun parts later => later.PartsMatch g parts (xs.map part)) := by
  have all := meets_mapM (R := fun later (p : Part) a => p.Matches Eq (later.Stands g) (part a))
    (fun _ _ _ _ h agree => agree.imp fun _ _ => h.stands) sound each
  exact all.imp fun _ _ _ agree => List.forall₂_map_right_iff.mpr agree

theorem meets_members {α : Type} {f : α → Build Member} {member : α → Member Subject}
    {xs : List α} (sound : b.Sound g)
    (each : ∀ a ∈ xs, ∀ later, b.Continues g later →
      Meets g fuel later (f a) (fun m last => m.Matches (last.Stands g) (member a))) :
    Meets g fuel b (xs.mapM f) (fun ms later => later.MembersMatch g ms (xs.map member)) := by
  have all := meets_mapM (R := fun later (m : Member) a => m.Matches (later.Stands g) (member a))
    (fun _ _ _ _ h agree => { agree with type := h.stands agree.type }) sound each
  exact all.imp fun _ _ _ agree => List.forall₂_map_right_iff.mpr agree

theorem meets_typesOf (reliable : sub.Reliable g fuel) (sound : b.Sound g)
    {members : List Subschema} (below : ∀ s ∈ members, s.Below g.size) :
    Meets g fuel b (typesOf sub members)
      (fun parts later => later.PartsMatch g parts ((members.map .schema).map .type)) := by
  rw [List.map_map]
  apply meets_parts sound
  intro s member later continues
  apply (meets_sub reliable continues.sound (below s member)).bind
  intro t last after stands
  exact meets_pure after.sound (.type stands)

theorem meets_collection (reliable : sub.Reliable g fuel) (sound : b.Sound g) {kind : Kind}
    {members : List Subschema} (below : ∀ s ∈ members, s.Below g.size) :
    Meets g fuel b (collection sub n kind members keyName key)
      (fun type later => later.Fits g type (some (n.collectionForm kind (members.map .schema)))) := by
  apply (meets_standaloneName sound).bind
  intro name later continues _
  apply (meets_typesOf reliable continues.sound below).bind
  intro parts last after agree
  exact meets_pure after.sound (Builder.fits_collection agree)

theorem meets_enumNames (sound : b.Sound g) :
    Meets g fuel b (enumNames n) (fun names _ =>
      (if n.tsEnumNames.truthy then n.tsEnumNames.elements? else some []) = some names) := by
  unfold enumNames
  split
  · split
    · rename_i names elements
      exact meets_pure sound elements
    · exact meets_throw sound nofun
  · exact meets_pure sound rfl

theorem meets_choice {name v : Json} (sound : b.Sound g) :
    Meets g fuel b (do return Part.choice name (← addType (literal none v)))
      (fun (p : Part) later => p.Matches Eq (later.Stands g) (.choice name (.schema (.bare v)))) := by
  apply (meets_literal sound).bind
  intro t later continues stands
  exact meets_pure continues.sound (.choice rfl stands)

theorem meets_namedEnum (sound : b.Sound g) :
    Meets g fuel b (namedEnum n i keyName key)
      (fun type later => later.Fits g type n.namedEnumForm) := by
  apply (meets_get sound).bind
  rintro a later continues ⟨rfl, rfl⟩
  split
  · rename_i values enum
    apply (meets_enumNames sound).bind
    intro names later continues listed
    extract_lets finish
    split
    · exact meets_throw_bind continues.sound nofun
    · rename_i lengths
      apply (meets_standaloneName continues.sound).bind
      intro name last after _
      apply (meets_parts after.sound fun e _ _ next => meets_choice next.sound).bind
      intro parts final filled agree
      refine meets_pure filled.sound ?_
      have form : n.namedEnumForm = some { n.bareForm .enum with
          params := .many ((names.zip values).map fun e => .choice e.1 (.schema (.bare e.2))) } := by
        unfold Node.namedEnumForm
        rw [enum]
        dsimp only
        rw [listed]
        exact if_pos (not_not.mp lengths)
      rw [form]
      exact Builder.fits_described (.many agree)
  · exact meets_throw sound nofun

theorem meets_enumValues (sound : b.Sound g) :
    Meets g fuel b (enumValues n) (fun values _ => n.enumValues? = some values) := by
  unfold enumValues
  split
  · rename_i entries enum
    refine meets_pure sound ?_
    rw [Node.enumValues?, enum]
  · rename_i noObject
    have listed : n.enumValues? = if n.enum.truthy then n.enum.elements? else some [] := by
      unfold Node.enumValues?
      split
      · rename_i entries enum
        exact (noObject entries enum).elim
      · rfl
    rw [listed]
    split
    · split
      · rename_i values elements
        exact meets_pure sound elements
      · exact meets_throw sound (by simp)
    · exact meets_pure sound rfl

theorem meets_literalPart {v : Json} (sound : b.Sound g) :
    Meets g fuel b (do return Part.type (← addType (literal none v)))
      (fun (p : Part) later => p.Matches Eq (later.Stands g) (.type (.schema (.bare v)))) := by
  apply (meets_literal sound).bind
  intro t later continues stands
  exact meets_pure continues.sound (.type stands)

theorem meets_unnamedEnum (sound : b.Sound g) :
    Meets g fuel b (unnamedEnum n keyName key) (fun type later => later.Fits g type
      (n.enumValues?.map fun values =>
        n.collectionForm .union (values.map fun v => .schema (.bare v)))) := by
  apply (meets_enumValues sound).bind
  intro values later continues listed
  apply (meets_standaloneName continues.sound).bind
  intro name last after _
  apply (meets_parts after.sound fun v _ _ next => meets_literalPart next.sound).bind
  intro parts final filled agree
  refine meets_pure filled.sound ?_
  rw [listed]
  refine Builder.fits_collection ?_
  rwa [List.map_map]

theorem meets_spreadOf (reliable : sub.Reliable g fuel) (sound : b.Sound g)
    {additional : Option Subschema} (below : ∀ s ∈ additional, s.Below g.size) :
    Meets g fuel b (spreadOf sub additional)
      (fun spread later => Option.Rel (later.Stands g) spread (Node.spreadSubject additional)) := by
  unfold spreadOf
  split
  · apply (meets_addAny sound).bind
    intro t later continues stands
    exact meets_pure continues.sound (.some stands)
  · apply (meets_sub reliable sound (below _ rfl)).bind
    intro t later continues stands
    exact meets_pure continues.sound (.some stands)
  · rename_i noAny noNode
    have nothing : Node.spreadSubject additional = none := by
      unfold Node.spreadSubject
      split
      · exact (noAny rfl).elim
      · exact (noNode _ rfl).elim
      · rfl
    rw [nothing]
    exact meets_pure sound .none

theorem meets_typedArray (reliable : sub.Reliable g fuel) (sound : b.Sound g)
    (below : ∀ s ∈ n.children, s.Below g.size) :
    Meets g fuel b (typedArray sub n keyName key)
      (fun type later => later.Fits g type (some n.typedArrayForm)) := by
  apply (meets_standaloneName sound).bind
  intro name later continues _
  split
  · rename_i items found
    rw [Node.typedArrayForm, found]
    apply (meets_typesOf reliable continues.sound fun s h => below s ?_).bind
    · intro parts last after agree
      apply (meets_spreadOf reliable after.sound fun s h => below s ?_).bind
      · intro spread final filled spreads
        refine meets_pure filled.sound ?_
        exact ⟨_, rfl, ⟨rfl, .many (filled.parts agree), rfl, .nil, rfl, rfl, spreads⟩⟩
      · simp [Node.children, Option.mem_def.mp h]
    · simp [Node.children, found, Items.toList, h]
  · rename_i item found
    rw [Node.typedArrayForm, found]
    apply (meets_sub reliable continues.sound (below item ?_)).bind
    · intro t last after stands
      exact meets_pure after.sound (Builder.fits_described (.one stands))
    · simp [Node.children, found, Items.toList]
  · rename_i found
    rw [Node.typedArrayForm, found]
    apply (meets_sub reliable continues.sound ?_).bind
    · intro t last after stands
      exact meets_pure after.sound (Builder.fits_described (.one stands))
    · trivial

theorem meets_anyPlaces {upper : Int} {lower : Json} (sound : b.Sound g) :
    Meets g fuel b (anyPlaces upper lower)
      (fun places _ => Node.places? upper lower = some places) := by
  unfold anyPlaces Node.places?
  split
  · exact meets_throw sound nofun
  · rename_i bound number
    rw [number, Option.bind_some]
    split
    · split
      · split
        · rename_i count whole
          refine meets_pure sound ?_
          rw [whole]
          rfl
        · exact meets_throw sound nofun
      · exact meets_pure sound rfl
    · exact meets_pure sound rfl

theorem meets_anyPart (sound : b.Sound g) :
    Meets g fuel b (do return Part.type (← addAny))
      (fun (p : Part) later => p.Matches Eq (later.Stands g) (.type (.schema (.bool true)))) := by
  apply (meets_addAny sound).bind
  intro t later continues stands
  exact meets_pure continues.sound (.type stands)

theorem meets_untypedArray (sound : b.Sound g) :
    Meets g fuel b (untypedArray n keyName key)
      (fun type later => later.Fits g type n.untypedArrayForm) := by
  unfold untypedArray Node.untypedArrayForm
  extract_lets lower upper anything
  apply (meets_standaloneName sound).bind
  intro name later continues _
  apply (meets_anyPlaces continues.sound).bind
  intro places last after counted
  rw [counted]
  split
  · rename_i places
    apply (meets_parts after.sound fun _ _ _ next => meets_anyPart next.sound).bind
    intro parts final filled agree
    rw [List.map_replicate] at agree
    have places_match : ∀ last, final.Continues g last → last.PartsMatch g parts
        ((List.replicate places anything).map .type) := by
      intro last after
      rw [List.map_replicate]
      exact after.parts agree
    split
    · refine meets_pure filled.sound ?_
      exact ⟨_, rfl, ⟨rfl, .many (places_match _ (.refl filled.sound)), rfl, .nil, rfl, rfl, .none⟩⟩
    · rw [← bind_pure_comp, bind_assoc]
      apply (meets_addAny filled.sound).bind
      intro t last after stands
      rw [pure_bind]
      refine meets_pure after.sound ?_
      exact ⟨_, rfl, ⟨rfl, .many (places_match _ after), rfl, .nil, rfl, rfl, .some stands⟩⟩
  · apply (meets_addAny after.sound).bind
    intro t final filled stands
    exact meets_pure filled.sound (Builder.fits_described (.one stands))

end Build
end LinkedSchema
