import LinkedSchema.Proofs.Build.Agreement
import LinkedSchema.Proofs.Build.Bounds
import LinkedSchema.Proofs.Build.Fuel
import LinkedSchema.Proofs.Schema.Parents
import LinkedSchema.Proofs.Types.Order
/-! Builds end, and leave no type unfilled. -/
namespace LinkedSchema

variable {g : Graph} {b : Builder} {s : Subschema} {t u : TypeId} {types : TypeGraph}
  {fileName keyName : Option String}

namespace Node

variable {n : Node} {form : Form Subject}

theorem kind_of_untypedArray (made : n.untypedArrayForm = some form) : form.kind.isSome := by
  obtain ⟨places, _, rfl⟩ := Option.map_eq_some_iff.mp made
  cases places <;> rfl

theorem kind_of_namedEnum (made : n.namedEnumForm = some form) : form.kind.isSome := by
  unfold namedEnumForm at made
  split at made
  · obtain ⟨names, _, made⟩ := Option.bind_eq_some_iff.mp made
    split at made
    · cases made
      rfl
    · cases made
  · cases made

theorem kind_of_typedArray (n : Node) : n.typedArrayForm.kind.isSome := by
  unfold typedArrayForm
  split <;> rfl

theorem kind_of_formIn {category : Category} (made : n.formIn category = some form) :
    form.kind.isSome := by
  cases category with
  | namedEnum => exact kind_of_namedEnum made
  | untypedArray => exact kind_of_untypedArray made
  | unnamedEnum =>
    obtain ⟨values, _, rfl⟩ := Option.map_eq_some_iff.mp made
    rfl
  | reference => cases made
  | typedArray =>
    cases made
    exact kind_of_typedArray n
  | _ =>
    cases made
    rfl

theorem kind_of_form (made : n.form = some form) : form.kind.isSome := by
  unfold Node.form at made
  split at made
  · exact kind_of_formIn made
  · cases made
    rfl

end Node

theorem Graph.kind_of_form {x : Subject} {form : Form Subject} (made : g.form x = some form) :
    form.kind.isSome := by
  cases x with
  | schema s =>
    cases s with
    | node i => exact Node.kind_of_form made
    | bool allowed => cases made; rfl
    | bare v => cases made; rfl
  | whole n => exact Node.kind_of_form made
  | part n category => exact Node.kind_of_formIn made

namespace Builder

/-- When all entries are complete, every type below one that stands for something stands for
something. -/
theorem exists_stands_of_reaches {t u : TypeId} {x : Subject} (sound : b.Sound g)
    (complete : ∀ e ∈ b.built, b.Complete g e) (stands : b.Stands g t x)
    (reached : b.types.Reaches t u) : ∃ y, b.Stands g u y := by
  induction reached with
  | refl => exact ⟨x, stands⟩
  | tail _ edge ih =>
    obtain ⟨y, standing⟩ := ih
    obtain ⟨form, _, agree⟩ := stands_step sound complete standing
    exact exists_of_forall₂ agree.references _ edge

/-- When all entries are complete, every type below one that stands for something is filled. -/
theorem filled_of_stands {x : Subject} (sound : b.Sound g)
    (complete : ∀ e ∈ b.built, b.Complete g e) (stands : b.Stands g t x) : b.types.Filled t := by
  intro u reached
  obtain ⟨y, standing⟩ := exists_stands_of_reaches sound complete stands reached
  obtain ⟨form, made, agree⟩ := stands_step sound complete standing
  have kind : (b.types.node u).kind = form.kind := agree.kind
  rw [kind]
  exact Graph.kind_of_form made

/-- What a state is bounded by, given the graph that the build started from: so many nodes and
copies, so many entries, each for another node and category. The ways up to the roots of documents
end, and the collection of definitions does not depend on its fuel. -/
structure Bounded (g : Graph) (b : Builder) : Prop where
  schemas : b.schemas.size ≤ g.size * (2 + 4 * g.mostTypes)
  built : b.built.length ≤ 18 * (g.size * (2 + 4 * g.mostTypes))
  builtOnce : (b.built.map (·.1)).Nodup
  roots : ∀ i < b.schemas.size, (b.schemas.node (b.schemas.documentRoot i)).parent = none
  definitions : ∀ i < b.schemas.size, ∀ fuel ≥ b.schemas.size,
    b.schemas.definitions i = (b.schemas.collectBelow fuel [] (.node i)).1

theorem Sound.bounded (sound : b.Sound g) (names : g.NamesTypes) (first : g.ParentsFirst) :
    b.Bounded g where
  schemas := sound.copies.schemas_size_le names
  built := sound.built_length_le names
  builtOnce := sound.builtOnce
  roots _ inside := (sound.copies.parentsFirst first).documentRoot inside
  definitions _ inside _ enough := Graph.definitions_eq sound.copies.closed inside enough

end Builder

namespace Build

theorem ne_outOfFuel (sound : b.Sound g) (names : g.NamesTypes) (below : s.Below g.size)
    {fuel : Nat} (enough : depth g ≤ fuel) (later : Builder) :
    levels fuel s keyName b ≠ .error .outOfFuel later := by
  intro run
  have meets := levels_reliable g fuel _ s keyName sound (sound.admits below)
  unfold Meets at meets
  rw [run] at meets
  have spent := meets.2 rfl
  have few := meets.1.built_length_le names
  have deep := depth_eq g
  omega

theorem levels_ne_outOfFuel (closed : g.Closed) (names : g.NamesTypes) (below : s.Below g.size)
    {fuel : Nat} (enough : depth g ≤ fuel) (later : Builder) :
    levels fuel s keyName (.fresh g types fileName) ≠ .error .outOfFuel later :=
  ne_outOfFuel (Builder.sound_fresh closed) names below enough later

/-- Builds end: more fuel than a build is given changes nothing, and it never runs out. What it has
built is bounded by the graph that it started from. All types below the one that it returns are
filled, so the export of each of them is not refused. -/
theorem typeOf_ends (closed : g.Closed) (names : g.NamesTypes) (first : g.ParentsFirst)
    (below : s.Below g.size) (types : TypeGraph) (fileName keyName : Option String) :
    (∀ fuel ≥ depth g, levels fuel s keyName (.fresh g types fileName) =
      typeOf s keyName (.fresh g types fileName)) ∧
    (∀ e later, typeOf s keyName (.fresh g types fileName) = .error e later →
      e ≠ .outOfFuel ∧ later.Bounded g) ∧
    ∀ t later, typeOf s keyName (.fresh g types fileName) = .ok t later →
      later.Bounded g ∧ ∀ u, later.types.Reaches t u →
        (later.types.node u).kind.isSome ∧ ∃ json, later.types.toJson u = .ok json := by
  have unspent : ∀ later, levels (depth g) s keyName (.fresh g types fileName) ≠
      .error .outOfFuel later := levels_ne_outOfFuel closed names below (Nat.le_refl _)
  have sound : (Builder.fresh g types fileName).Sound g := Builder.sound_fresh closed
  have meets := levels_reliable g (depth g) _ s keyName sound (sound.admits below)
  unfold Meets at meets
  refine ⟨?_, ?_, ?_⟩
  · intro fuel enough
    rcases refines_levels enough s keyName (.fresh g types fileName) with ⟨later, spent⟩ | same
    · exact absurd spent (unspent later)
    · exact same.symm
  · intro e later run
    rw [show levels (depth g) s keyName (.fresh g types fileName) = .error e later from run] at meets
    refine ⟨?_, meets.1.bounded names first⟩
    rintro rfl
    exact unspent later run
  · intro t later run
    rw [show levels (depth g) s keyName (.fresh g types fileName) = .ok t later from run] at meets
    obtain ⟨continues, shows⟩ := meets
    have stands : later.Stands g t (.schema s) := ⟨below, shows⟩
    have filled := Builder.filled_of_stands continues.sound continues.all_complete stands
    refine ⟨continues.sound.bounded names first, fun u reached => ⟨filled u reached, ?_⟩⟩
    exact TypeGraph.toJson_ok (filled.of_reaches reached)

theorem typeOf_knot_ends : ∃ t later,
    typeOf (.node 0) none (.fresh .knot .empty none) = .ok t later ∧ later.Bounded .knot ∧
    ∀ u, later.types.Reaches t u →
      (later.types.node u).kind.isSome ∧ ∃ json, later.types.toJson u = .ok json := by
  obtain ⟨t, later, run⟩ := exists_of_succeeds
    (show succeeds (typeOf (.node 0) none (.fresh .knot .empty none)) = true by decide +kernel)
  have closed : Graph.knot.Closed := by decide +kernel
  have names : Graph.knot.NamesTypes := by decide +kernel
  have first : Graph.knot.ParentsFirst := by decide +kernel
  have below : Subschema.Below Graph.knot.size (.node 0) := by decide
  obtain ⟨_, _, filled⟩ := typeOf_ends closed names first below .empty none none
  exact ⟨t, later, run, filled t later run⟩

end Build
end LinkedSchema
