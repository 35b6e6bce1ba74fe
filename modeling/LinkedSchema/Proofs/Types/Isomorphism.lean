import LinkedSchema.Proofs.Types.Encoding
import Mathlib.Logic.Equiv.Basic
/-! Isomorphic type graphs. Their exports go through the types in the same order, give them the same
labels, and write the same of each. -/
namespace LinkedSchema
namespace TypeGraph

open Json (Same)

variable {g h : TypeGraph} {r s t u : TypeId} {R : TypeId → TypeId → Prop}

/-- A bijection of the types below two roots that takes one root to the other. A type and its image
agree in all they say, and the images of the types that the one refers to are the types that the
other refers to. -/
def Isomorphic (g h : TypeGraph) (r s : TypeId) : Prop :=
  ∃ e : {t // g.Reaches r t} ≃ {u // h.Reaches s u}, (e ⟨r, .refl⟩).1 = s ∧
    ∀ t, (g.node t.1).Matches (fun a b => ∃ reached : g.Reaches r a, (e ⟨a, reached⟩).1 = b)
      (h.node (e t).1)

/-- An isomorphism as a relation. -/
structure Corresponds (g h : TypeGraph) (r s : TypeId) (R : TypeId → TypeId → Prop) : Prop where
  root : R r s
  below : ∀ t u, R t u → g.Reaches r t ∧ h.Reaches s u
  node : ∀ t u, R t u → (g.node t).Matches R (h.node u)
  onlyLeft : ∀ t t' u, R t u → R t' u → t = t'
  onlyRight : ∀ t u u', R t u → R t u' → u = u'

namespace Corresponds

variable (iso : Corresponds g h r s R)
include iso

theorem eq_iff {t' u' : TypeId} (here : R t u) (there : R t' u') : t' = t ↔ u' = u := by
  constructor
  · rintro rfl
    exact iso.onlyRight _ _ _ there here
  · rintro rfl
    exact iso.onlyLeft _ _ _ there here

theorem exists_right (reached : g.Reaches r t) : ∃ u, R t u := by
  induction reached with
  | refl => exact ⟨s, iso.root⟩
  | tail _ edge ih =>
    obtain ⟨q, pair⟩ := ih
    exact exists_of_forall₂ (iso.node _ q pair).references _ edge

theorem exists_left (reached : h.Reaches s u) : ∃ t, R t u := by
  induction reached with
  | refl => exact ⟨r, iso.root⟩
  | tail _ edge ih =>
    obtain ⟨p, pair⟩ := ih
    exact exists_of_forall₂ (iso.node p _ pair).references.flip _ edge

theorem isomorphic : g.Isomorphic h r s := by
  choose image image_spec using fun t : {t // g.Reaches r t} => iso.exists_right t.2
  choose source source_spec using fun u : {u // h.Reaches s u} => iso.exists_left u.2
  let e : {t // g.Reaches r t} ≃ {u // h.Reaches s u} := {
    toFun := fun t => ⟨image t, (iso.below _ _ (image_spec t)).2⟩
    invFun := fun u => ⟨source u, (iso.below _ _ (source_spec u)).1⟩
    left_inv := fun t => Subtype.ext (iso.onlyLeft _ _ _ (source_spec _) (image_spec t))
    right_inv := fun u => Subtype.ext (iso.onlyRight _ _ _ (image_spec _) (source_spec u)) }
  refine ⟨e, iso.onlyRight _ _ _ (image_spec _) iso.root, fun t => ?_⟩
  refine (iso.node _ _ (image_spec t)).imp_mem fun a _ b pair => ?_
  exact ⟨(iso.below a b pair).1, iso.onlyRight _ _ _ (image_spec _) pair⟩

end Corresponds

theorem Isomorphic.corresponds (iso : g.Isomorphic h r s) : ∃ R, Corresponds g h r s R := by
  obtain ⟨e, root, node⟩ := iso
  refine ⟨fun a b => ∃ reached : g.Reaches r a, (e ⟨a, reached⟩).1 = b, ⟨.refl, root⟩, ?_, ?_, ?_, ?_⟩
  · rintro t u ⟨reached, rfl⟩
    exact ⟨reached, (e ⟨t, reached⟩).2⟩
  · rintro t u ⟨reached, rfl⟩
    exact node ⟨t, reached⟩
  · rintro t t' u ⟨reached, rfl⟩ ⟨reached', same⟩
    exact (congrArg Subtype.val (e.injective (Subtype.ext same))).symm
  · rintro t u u' ⟨reached, rfl⟩ ⟨_, rfl⟩
    rfl

namespace Corresponds

variable {f f' : TypeId → Json} {pending met order pending' met' order' : List TypeId}
  {references references' : List TypeId} {labels labels' : List (TypeId × String)}

section

variable (iso : Corresponds g h r s R)
include iso

theorem count_eq {xs ys : List TypeId} (lists : List.Forall₂ R xs ys) (pair : R t u) :
    xs.count t = ys.count u := by
  induction lists with
  | nil => rfl
  | @cons x y xs ys head _ ih =>
    have keys := iso.eq_iff pair head
    by_cases here : x = t
    · rw [here, keys.mp here, List.count_cons_self, List.count_cons_self, ih]
    · have there : y ≠ u := fun same => here (keys.mpr same)
      rw [List.count_cons_of_ne here, List.count_cons_of_ne there, ih]

theorem mem_iff {xs ys : List TypeId} (lists : List.Forall₂ R xs ys) (pair : R t u) :
    t ∈ xs ↔ u ∈ ys := by
  rw [← List.count_pos_iff, ← List.count_pos_iff, iso.count_eq lists pair]

theorem orders_match (left : g.Visits pending met order) (right : h.Visits pending' met' order')
    (ahead : List.Forall₂ R pending pending') (behind : List.Forall₂ R met met') :
    List.Forall₂ R order order' := by
  induction left generalizing pending' met' order' with
  | done =>
    cases ahead
    cases right
    exact .nil
  | again old _ ih =>
    cases ahead with
    | cons pair ahead =>
      cases right with
      | again _ right => exact ih right ahead behind
      | first new _ => exact absurd ((iso.mem_iff behind pair).mp old) new
  | first new _ ih =>
    cases ahead with
    | cons pair ahead =>
      cases right with
      | again old _ => exact absurd ((iso.mem_iff behind pair).mpr old) new
      | first _ right =>
        have edges := (iso.node _ _ pair).references
        exact .cons pair (ih right (List.rel_append edges ahead) (.cons pair behind))

theorem references_match (orders : List.Forall₂ R order order') :
    List.Forall₂ R (g.allReferences r order) (h.allReferences s order') :=
  .cons iso.root (List.rel_flatMap orders fun _ _ pair => (iso.node _ _ pair).references)

theorem labels_match (all : List.Forall₂ R references references') (orders : List.Forall₂ R order order')
    (numbered : Nat) :
    List.Forall₂ (fun x y => R x.1 y.1 ∧ x.2 = y.2) (g.labels references numbered order)
      (h.labels references' numbered order') := by
  induction orders generalizing numbered with
  | nil => exact .nil
  | @cons t u order order' pair _ ih =>
    rw [TypeGraph.labels, TypeGraph.labels, (iso.node t u pair).standaloneName,
      iso.count_eq all pair]
    split
    · exact .cons ⟨pair, rfl⟩ (ih numbered)
    · split
      · exact .cons ⟨pair, rfl⟩ (ih (numbered + 1))
      · exact ih numbered

theorem labels_correspond (left : g.Encodes r order labels f)
    (right : h.Encodes s order' labels' f') :
    List.Forall₂ (fun x y => R x.1 y.1 ∧ x.2 = y.2) labels labels' := by
  have orders := iso.orders_match left.visits right.visits (.cons iso.root .nil) .nil
  rw [left.labels_eq, right.labels_eq]
  exact iso.labels_match (iso.references_match orders) orders 0

theorem lookup_eq (lists : List.Forall₂ (fun x y => R x.1 y.1 ∧ x.2 = y.2) labels labels')
    (pair : R t u) : labels.lookup t = labels'.lookup u := by
  rw [← rel_eq_iff]
  exact lookup_rel (lists.imp fun x y both => ⟨iso.eq_iff pair both.1, both.2⟩)

end

section

variable (iso : Corresponds g h r s R) (shaped : ∀ t, g.Reaches r t → (g.node t).Shaped)
  (shaped' : ∀ u, h.Reaches s u → (h.node u).Shaped) (left : g.Encodes r order labels f)
  (right : h.Encodes s order' labels' f')
include iso shaped shaped' left right

/-- Corresponding types have the same labels, and the same stands for them. -/
theorem same_types : ∀ t ∈ order, ∀ u, R t u → (f t).Same (f' u) := by
  have lists := iso.labels_correspond left right
  -- The induction covers types that are written in place; the others are references to one label.
  refine left.induction fun t listed ih u pair => ?_
  have reached := iso.below t u pair
  have listed' : u ∈ order' := right.mem_iff.mpr reached.2
  have each : ∀ a ∈ (g.node t).references, ∀ b, R a b → (f a).Same (f' b) := by
    intro a edge b pair
    cases found : labels.lookup a with
    | none => exact ih a edge found b pair
    | some label =>
      have found' : labels'.lookup b = some label := iso.lookup_eq lists pair ▸ found
      have below := iso.below a b pair
      rw [left.written a (left.mem_iff.mpr below.1), right.written b (right.mem_iff.mpr below.2),
        found, found']
      exact same_reference_iff.mpr rfl
  have full : (fullJson f (g.node t)).Same (fullJson f' (h.node u)) :=
    (same_fullJson_iff (shaped t reached.1) (shaped' u reached.2)).mpr
      ((iso.node t u pair).imp_mem each)
  rw [left.written t listed, right.written u listed', iso.lookup_eq lists pair]
  cases labels'.lookup u with
  | none => exact full
  | some label => exact same_reference_iff.mpr rfl

/-- Isomorphic graphs have the same export. -/
theorem same_export :
    (Json.obj [("root", f r), ("nodes", .obj (labelledJson f g labels))]).Same
      (.obj [("root", f' s), ("nodes", .obj (labelledJson f' h labels'))]) := by
  have lists := iso.labels_correspond left right
  have types := iso.same_types shaped shaped' left right
  rw [Json.same_pair_iff (by decide), Json.same_obj_iff]
  refine ⟨types r (left.mem_iff.mpr .refl) s iso.root, fun name => ?_⟩
  have entries : List.Forall₂ (fun x y => (x.1 = name ↔ y.1 = name) ∧ Same x.2 y.2)
      (labels.map fun e => (e.2, fullJson f (g.node e.1)))
      (labels'.map fun e => (e.2, fullJson f' (h.node e.1))) := by
    rw [List.forall₂_map_left_iff, List.forall₂_map_right_iff]
    refine lists.imp ?_
    rintro ⟨t, label⟩ ⟨u, _⟩ ⟨pair, rfl⟩
    have reached := iso.below t u pair
    refine ⟨.rfl, (same_fullJson_iff (shaped t reached.1) (shaped' u reached.2)).mpr ?_⟩
    refine (iso.node t u pair).imp_mem fun a _ b pair => ?_
    exact types a (left.mem_iff.mpr (iso.below a b pair).1) b pair
  rw [labelledJson, labelledJson, Entries.lookup_merge, Entries.lookup_merge]
  have related := lookup_rel (List.rel_reverse entries)
  simpa using related

end

end Corresponds

end TypeGraph
end LinkedSchema
