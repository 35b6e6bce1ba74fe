import LinkedSchema.Proofs.Types.Isomorphism
/-! Exports lose nothing. Types that the same path leads to in two graphs with the same export are
written alike, and a type is found at one place or under one label. -/
namespace LinkedSchema
namespace TypeGraph

open Json (Same)

variable {g h : TypeGraph} {r s t u u' : TypeId} {f f' : TypeId → Json} {n : TypeNode}
  {order order' : List TypeId} {labels labels' : List (TypeId × String)} {label : String}

/-- Types that the same path leads to. -/
inductive Paired (g h : TypeGraph) (r s : TypeId) : TypeId → TypeId → Prop
  | root : Paired g h r s r s
  | step {t u t' u' : TypeId} {i : Nat} : Paired g h r s t u →
      (g.node t).references[i]? = some t' → (h.node u).references[i]? = some u' →
      Paired g h r s t' u'

theorem Paired.symm (pair : Paired g h r s t u) : Paired h g s r u t := by
  induction pair with
  | root => exact .root
  | step _ left right ih => exact ih.step right left

theorem Paired.reaches (pair : Paired g h r s t u) : g.Reaches r t ∧ h.Reaches s u := by
  induction pair with
  | root => exact ⟨.refl, .refl⟩
  | step _ left right ih =>
    exact ⟨ih.1.tail (List.mem_of_getElem? left), ih.2.tail (List.mem_of_getElem? right)⟩

/-- A graph below a root whose types are made of what their kinds say, and have names of their
own. -/
structure Exportable (g : TypeGraph) (root : TypeId) : Prop extends WellNamed g root where
  shaped : ∀ t, g.Reaches root t → (g.node t).Shaped

theorem Exportable.filled (ok : g.Exportable r) : g.Filled r := by
  intro t reached
  obtain ⟨kind, found, _⟩ := ok.shaped t reached
  rw [Option.mem_def.mp found]
  rfl

/-- A type in full is no reference. -/
theorem not_same_reference : ¬ (fullJson f n).Same (reference label) := by
  intro same
  have once : (fields f n).names.Nodup := by simp [fields, Entries.names]
  have tag := Json.same_obj_iff.mp (fullJson_eq ▸ same) "tag"
  rw [Entries.lookup_present once] at tag
  have tag : Option.Rel Same (n.kind.map fun kind => .str kind.name) (some (.str "ref")) := tag
  cases found : n.kind with
  | none =>
    rw [found] at tag
    cases tag
  | some kind =>
    rw [found, Option.map_some, Option.rel_some_some, Json.same_str_iff] at tag
    revert tag
    cases kind <;> decide

section

variable (left : g.Encodes r order labels f) (right : h.Encodes s order' labels' f')
  (ok : g.Exportable r) (ok' : h.Exportable s)
  (same : (Json.obj (labelledJson f g labels)).Same (.obj (labelledJson f' h labels')))
include left right ok ok' same

/-- Types that the same stands for have the same label and are the same in full. -/
theorem agree_of_same (reached : g.Reaches r t) (reached' : h.Reaches s u)
    (alike : (f t).Same (f' u)) : labels.lookup t = labels'.lookup u ∧
      (g.node t).Matches (fun a b => (f a).Same (f' b)) (h.node u) := by
  rw [← same_fullJson_iff (ok.shaped t reached) (ok'.shaped u reached')]
  rw [left.written t (left.mem_iff.mpr reached), right.written u (right.mem_iff.mpr reached')]
    at alike
  cases here : labels.lookup t with
  | none =>
    cases there : labels'.lookup u with
    | none =>
      rw [here, there] at alike
      exact ⟨rfl, alike⟩
    | some label =>
      rw [here, there] at alike
      exact absurd alike not_same_reference
  | some label =>
    cases there : labels'.lookup u with
    | none =>
      rw [here, there] at alike
      exact absurd alike.symm not_same_reference
    | some label' =>
      rw [here, there] at alike
      have equal : label = label' := same_reference_iff.mp alike
      subst equal
      have full := Json.same_obj_iff.mp same label
      rw [left.lookup_labelledJson ok.toWellNamed here,
        right.lookup_labelledJson ok'.toWellNamed there, Option.rel_some_some] at full
      exact ⟨rfl, full⟩

theorem same_of_paired (root : (f r).Same (f' s)) (pair : Paired g h r s t u) :
    (f t).Same (f' u) := by
  induction pair with
  | root => exact root
  | step pair here there ih =>
    obtain ⟨reached, reached'⟩ := pair.reaches
    have agree := (agree_of_same left right ok ok' same reached reached' ih).2
    have related := (List.forall₂_iff_get.mp agree.references).2
    obtain ⟨inside, rfl⟩ := List.getElem?_eq_some_iff.mp here
    obtain ⟨inside', rfl⟩ := List.getElem?_eq_some_iff.mp there
    exact related _ inside inside'

/-- A type is paired with one type only: both have a label, or both have one place. -/
theorem paired_unique (root : (f r).Same (f' s)) (first : Paired g h r s t u)
    (second : Paired g h r s t u') : u = u' := by
  have agree : ∀ {t u}, Paired g h r s t u → labels.lookup t = labels'.lookup u := by
    intro t u pair
    obtain ⟨reached, reached'⟩ := pair.reaches
    have alike := same_of_paired left right ok ok' same root pair
    exact (agree_of_same left right ok ok' same reached reached' alike).1
  have labelled : ∀ {t u u' label}, labels.lookup t = some label → Paired g h r s t u →
      Paired g h r s t u' → u = u' := by
    intro t u u' label found pair pair'
    exact right.label_unique ok'.toWellNamed ((agree pair).symm.trans found)
      ((agree pair').symm.trans found)
  have listed : ∀ {t u}, Paired g h r s t u → t ∈ order := fun pair =>
    left.mem_iff.mpr pair.reaches.1
  induction first generalizing u' with
  | root =>
    cases found : labels.lookup r with
    | some label => exact labelled found .root second
    | none =>
      have few := (left.unlabelled (listed .root) found).2
      cases second with
      | root => rfl
      | step pair here _ =>
        exact absurd rfl (ne_root_of_refers few (listed pair) (List.mem_of_getElem? here))
  | @step p q t u i pair here there ih =>
    cases found : labels.lookup t with
    | some label => exact labelled found (pair.step here there) second
    | none =>
      -- Without a label there is one reference, so both paths end with the same step.
      have few := (left.unlabelled (listed second) found).2
      have edge := List.mem_of_getElem? here
      cases second with
      | root => exact absurd rfl (ne_root_of_refers few (listed pair) edge)
      | step pair' here' there' =>
        have edge' := List.mem_of_getElem? here'
        have source := referrer_unique few (listed pair) (listed pair') edge edge'
        subst source
        have place := index_unique (count_references_le few (listed pair)) here here'
        have image := ih pair'
        rw [place, image, there'] at there
        exact (Option.some.inj there).symm

theorem corresponds_of_same (root : (f r).Same (f' s)) :
    Corresponds g h r s (Paired g h r s) where
  root := .root
  below _ _ pair := pair.reaches
  node t u pair := by
    obtain ⟨reached, reached'⟩ := pair.reaches
    have alike := same_of_paired left right ok ok' same root pair
    have agree := (agree_of_same left right ok ok' same reached reached' alike).2
    refine agree.of_references (List.forall₂_iff_get.mpr ⟨agree.references.length_eq, ?_⟩)
    intro i inside inside'
    exact pair.step (List.getElem?_eq_getElem inside) (List.getElem?_eq_getElem inside')
  onlyLeft t t' u pair pair' :=
    paired_unique right left ok' ok same.symm root.symm pair.symm pair'.symm
  onlyRight t u u' pair pair' := paired_unique left right ok ok' same root pair pair'

end

/-- Both graphs can be exported, and their exports are the same value if and only if the graphs are
isomorphic. -/
theorem toJson_same_iff (ok : g.Exportable r) (ok' : h.Exportable s) :
    ∃ v w, g.toJson r = .ok v ∧ h.toJson s = .ok w ∧ (v.Same w ↔ g.Isomorphic h r s) := by
  obtain ⟨order, labels, f, left, run⟩ := toJson_encodes ok.filled
  obtain ⟨order', labels', f', right, run'⟩ := toJson_encodes ok'.filled
  refine ⟨_, _, run, run', fun same => ?_, fun iso => ?_⟩
  · obtain ⟨root, nodes⟩ := (Json.same_pair_iff (by decide)).mp same
    exact (corresponds_of_same left right ok ok' nodes root).isomorphic
  · obtain ⟨R, iso⟩ := iso.corresponds
    exact iso.same_export ok.shaped ok'.shaped left right

/-- What can be checked of all types of a graph at once. -/
theorem exportable_of_all (inside : r < g.size)
    (closed : ∀ t < g.size, ∀ u ∈ (g.node t).references, u < g.size)
    (shaped : ∀ t < g.size, (g.node t).Shaped)
    (apart : ∀ t < g.size, ∀ u < g.size, (g.node t).standaloneName.isSome →
      (g.node t).standaloneName = (g.node u).standaloneName → t = u)
    (plain : ∀ t < g.size, ∀ name ∈ (g.node t).standaloneName, name.toList.head? ≠ some '#') :
    g.Exportable r := by
  have below : ∀ t, g.Reaches r t → t < g.size := by
    intro t reached
    induction reached with
    | refl => exact inside
    | tail _ edge ih => exact closed _ ih _ edge
  refine ⟨⟨fun t u name ht hu here there => ?_, fun t name ht named k same => ?_⟩, fun t ht => ?_⟩
  · exact apart t (below t ht) u (below u hu) (by rw [here]; rfl) (here.trans there.symm)
  · refine plain t (below t ht) name named ?_
    rw [same, numberLabel, String.toList_append]
    rfl
  · exact shaped t (below t ht)

/-- A shared union of an array of itself and a literal that looks like a reference. -/
def looped : TypeGraph := ⟨#[
  { kind := some .union, params := .many [.type 1, .type 2] },
  { kind := some .array, params := .one 0, standaloneName := some "A" },
  { kind := some .literal, params := .value (reference "#1") }]⟩

/-- The same graph with other numbers. -/
def looped' : TypeGraph := ⟨#[
  { kind := some .array, params := .one 2, standaloneName := some "A" },
  { kind := some .literal, params := .value (reference "#1") },
  { kind := some .union, params := .many [.type 0, .type 1] }]⟩

def loopedJson : Json := .obj [
  ("root", reference "#1"),
  ("nodes", .obj [
    ("#1", .obj [("tag", .str "UNION"), ("params", .arr [reference "A",
      .obj [("tag", .str "LITERAL"), ("params", reference "#1")]])]),
    ("A", .obj [("tag", .str "ARRAY"), ("standalone_name", .str "A"), ("params", reference "#1")])])]

theorem isomorphic_looped : looped.toJson 0 = .ok loopedJson ∧ looped'.toJson 2 = .ok loopedJson ∧
    looped.Isomorphic looped' 0 2 := by
  have ok : looped.Exportable 0 :=
    exportable_of_all (by decide) (by decide) (by decide) (by decide) (by decide)
  have ok' : looped'.Exportable 2 :=
    exportable_of_all (by decide) (by decide) (by decide) (by decide) (by decide)
  have here : looped.toJson 0 = .ok loopedJson := by rfl
  have there : looped'.toJson 2 = .ok loopedJson := by rfl
  obtain ⟨v, w, run, run', iff⟩ := toJson_same_iff ok ok'
  rw [here, Except.ok.injEq] at run
  rw [there, Except.ok.injEq] at run'
  subst run run'
  exact ⟨here, there, iff.mp (.refl loopedJson)⟩

end TypeGraph
end LinkedSchema
