import LinkedSchema.Build.TypeOf
import LinkedSchema.Proofs.Build.Copying
import LinkedSchema.Proofs.Schema.Fields
import LinkedSchema.Proofs.Schema.Parents
import Mathlib.Data.List.Perm.Subperm
import Mathlib.Tactic.Ring
/-! How much a build can add. Copies are made of nodes of the graph and of copies of another sort
only, so they are not made forever. -/
namespace LinkedSchema

variable {g schemas : Graph} {b : Builder} {α β : Type} {strips : List (NodeId × NodeId)}
  {narrows : List ((NodeId × Json) × NodeId)}

theorem length_le_of_keys {κ : Type} {xs : List α} {key : α → κ} {ys : List κ}
    (once : (xs.map key).Nodup) (among : ∀ x ∈ xs, key x ∈ ys) : xs.length ≤ ys.length := by
  have subset : xs.map key ⊆ ys := by
    intro k hk
    obtain ⟨x, hx, rfl⟩ := List.mem_map.mp hk
    exact among x hx
  simpa using (List.subperm_of_subset once subset).length_le

theorem length_flatMap_le {xs : List α} {f : α → List β} {most : Nat}
    (few : ∀ x ∈ xs, (f x).length ≤ most) : (xs.flatMap f).length ≤ xs.length * most := by
  induction xs with
  | nil => simp
  | cons x xs ih =>
    have head := few x List.mem_cons_self
    have tail := ih fun y hy => few y (List.mem_cons_of_mem _ hy)
    rw [List.flatMap_cons, List.length_append, List.length_cons, Nat.succ_mul]
    omega

namespace Category

def all : List Category :=
  [.allOf, .any, .anyOf, .boolean, .customType, .namedEnum, .namedSchema, .null, .number, .object,
    .oneOf, .reference, .string, .typedArray, .union, .unnamedEnum, .unnamedSchema, .untypedArray]

theorem mem_all (c : Category) : c ∈ all := by
  cases c <;> decide

end Category

namespace Node

theorem typeCount_eq (n : Node) : Build.typeCount n = n.typeList.length := by
  unfold Build.typeCount typeList
  cases n.type <;> rfl

theorem typeList_unnamed (n : Node) : n.unnamed.typeList = n.typeList := rfl

theorem typeList_ofType (n : Node) {type : Json} (flat : type.isArr = false) :
    (n.ofType type).typeList = [] := by
  cases type <;> first | rfl | cases flat

end Node

theorem Node.isText_of_mem_typeList {n : Node} {v : Json} (names : n.type.NamesTypes)
    (listed : v ∈ n.typeList) : v.isText = true := by
  unfold Node.typeList at listed
  cases type : n.type with
  | arr types =>
    rw [type] at names listed
    exact names v listed
  | _ => rw [type] at listed; cases listed

theorem Node.namesTypes_ofType {n : Node} {type : Json} (names : n.type.NamesTypes)
    (listed : type ∈ n.typeList) : (n.ofType type).type.NamesTypes := by
  have text := Node.isText_of_mem_typeList names listed
  show type.NamesTypes
  cases type with
  | str name => trivial
  | _ => cases text

theorem Json.alike_self_of_isText {v : Json} (text : v.isText = true) : v.alike v = true := by
  cases v with
  | str s => simp [Json.alike]
  | _ => cases text

/-- The largest number of types that a node is declared with. -/
def Graph.mostTypes (g : Graph) : Nat :=
  g.nodes.foldl (fun most n => max most (Build.typeCount n)) 0

theorem Build.depth_eq (g : Graph) :
    Build.depth g = 18 * (g.size * (2 + 4 * g.mostTypes)) + 2 := rfl

theorem le_foldl_max (f : α → Nat) (xs : List α) (start : Nat) :
    start ≤ xs.foldl (fun most x => max most (f x)) start ∧
      ∀ x ∈ xs, f x ≤ xs.foldl (fun most x => max most (f x)) start := by
  induction xs generalizing start with
  | nil => simp
  | cons y ys ih =>
    obtain ⟨above, each⟩ := ih (max start (f y))
    rw [List.foldl_cons]
    refine ⟨by omega, ?_⟩
    intro x hx
    rcases List.mem_cons.mp hx with rfl | hx
    · omega
    · exact each x hx

theorem foldl_max_le {f : α → Nat} {xs : List α} {start most : Nat} (above : start ≤ most)
    (each : ∀ x ∈ xs, f x ≤ most) : xs.foldl (fun m x => max m (f x)) start ≤ most := by
  induction xs generalizing start with
  | nil => exact above
  | cons x xs ih =>
    exact ih (Nat.max_le.mpr ⟨above, each x List.mem_cons_self⟩)
      fun y hy => each y (List.mem_cons_of_mem _ hy)

theorem Graph.typeList_length_le {i : NodeId} (inside : i < g.size) :
    (g.node i).typeList.length ≤ g.mostTypes := by
  have filled : i < g.nodes.size := inside
  have member : g.node i ∈ g.nodes.toList := by
    simp [node, Array.getD_eq_getD_getElem?, filled]
  unfold mostTypes
  rw [← Node.typeCount_eq, ← Array.foldl_toList]
  exact (le_foldl_max Build.typeCount _ 0).2 _ member

theorem Graph.mostTypes_le {most : Nat}
    (each : ∀ i < g.size, (g.node i).typeList.length ≤ most) : g.mostTypes ≤ most := by
  unfold mostTypes
  rw [← Array.foldl_toList]
  refine foldl_max_le (Nat.zero_le _) fun n listed => ?_
  obtain ⟨i, inside, found⟩ := Array.getElem_of_mem (Array.mem_toList_iff.mp listed)
  have same : g.node i = n := by
    rw [← found]
    exact dif_pos inside
  rw [Node.typeCount_eq, ← same]
  exact each i inside

namespace Copies

variable (copies : Copies g schemas strips narrows)
include copies

/-- What is no unnamed copy is a node of the graph or fixed to a type. -/
theorem shown_origin {i : NodeId} (inside : i < schemas.size) (shown : ¬ HiddenIn strips i) :
    i < g.size ∨ ∃ e ∈ narrows, e.2 = i := by
  rcases copies.origin i inside with own | hidden | narrowed
  · exact .inl own
  · exact absurd hidden shown
  · exact .inr narrowed

theorem typeList_narrowed {e : (NodeId × Json) × NodeId} (he : e ∈ narrows) :
    (schemas.node e.2).typeList = [] := by
  obtain ⟨_, _, _, _, same, _, flat⟩ := copies.narrowed e he
  rw [same]
  exact Node.typeList_ofType _ flat

theorem strips_length_le : strips.length ≤ g.size + narrows.length := by
  have among : ∀ e ∈ strips, e.1 ∈ List.range g.size ++ narrows.map (·.2) := by
    intro e he
    obtain ⟨inside, shown, _⟩ := copies.stripped e he
    rcases copies.shown_origin inside shown with own | ⟨d, hd, same⟩
    · exact List.mem_append_left _ (List.mem_range.mpr own)
    · exact List.mem_append_right _ (List.mem_map.mpr ⟨d, hd, same⟩)
  simpa using length_le_of_keys copies.strippedOnce among

theorem own_strips_length_le : (strips.filter (·.1 < g.size)).length ≤ g.size := by
  have once : ((strips.filter (·.1 < g.size)).map (·.1)).Nodup :=
    copies.strippedOnce.sublist (List.filter_sublist.map _)
  have among : ∀ e ∈ strips.filter (·.1 < g.size), e.1 ∈ List.range g.size := by
    intro e he
    simpa using (List.mem_filter.mp he).2
  simpa using length_le_of_keys once among

/-- Copies fixed to a type are made of nodes of the graph and of their unnamed copies. -/
theorem source_narrowed {e : (NodeId × Json) × NodeId} (he : e ∈ narrows) :
    e.1.1 < g.size ∨ ∃ d ∈ strips, d.2 = e.1.1 ∧ d.1 < g.size := by
  obtain ⟨inside, _, _, _, _, listed, _⟩ := copies.narrowed e he
  rcases copies.origin e.1.1 inside with own | ⟨d, hd, same⟩ | ⟨c, hc, same⟩
  · exact .inl own
  · obtain ⟨source, shown, _, _, unnamed⟩ := copies.stripped d hd
    rcases copies.shown_origin source shown with own | ⟨c, hc, fixed⟩
    · exact .inr ⟨d, hd, same, own⟩
    · rw [← same, unnamed, Node.typeList_unnamed, ← fixed, copies.typeList_narrowed hc] at listed
      cases listed
  · rw [← same, copies.typeList_narrowed hc] at listed
    cases listed

theorem narrowed_key {e : (NodeId × Json) × NodeId} (he : e ∈ narrows) :
    e.1 ∈ (List.range g.size).flatMap (fun i => (g.node i).typeList.map (i, ·)) ∨
      e.1 ∈ (strips.filter (·.1 < g.size)).flatMap
        (fun d => (g.node d.1).typeList.map (d.2, ·)) := by
  obtain ⟨_, _, _, _, _, listed, _⟩ := copies.narrowed e he
  rcases copies.source_narrowed he with own | ⟨d, hd, same, own⟩
  · rw [copies.kept _ own] at listed
    refine .inl (List.mem_flatMap.mpr ⟨e.1.1, List.mem_range.mpr own, ?_⟩)
    exact List.mem_map.mpr ⟨e.1.2, listed, rfl⟩
  · obtain ⟨_, _, _, _, unnamed⟩ := copies.stripped d hd
    rw [← same, unnamed, Node.typeList_unnamed, copies.kept _ own] at listed
    refine .inr (List.mem_flatMap.mpr ⟨d, List.mem_filter.mpr ⟨hd, by simpa using own⟩, ?_⟩)
    exact List.mem_map.mpr ⟨e.1.2, listed, by rw [same]⟩

/-- No node is the copy of two, or in two ways. -/
theorem apart : (strips.map (·.2) ++ narrows.map (·.2)).Nodup := by
  -- as many copies as there are nodes beyond the graph, and each of these is a copy
  have among : List.range' g.size (schemas.size - g.size) ⊆
      strips.map (·.2) ++ narrows.map (·.2) := by
    intro i listed
    obtain ⟨above, inside⟩ := List.mem_range'_1.mp listed
    have size := copies.size_le
    rcases copies.origin i (by omega) with own | ⟨e, he, rfl⟩ | ⟨e, he, rfl⟩
    · omega
    · exact List.mem_append_left _ (List.mem_map_of_mem he)
    · exact List.mem_append_right _ (List.mem_map_of_mem he)
  have long : (strips.map (·.2) ++ narrows.map (·.2)).length ≤
      (List.range' g.size (schemas.size - g.size)).length := by
    have size := copies.size
    simp only [List.length_append, List.length_map, List.length_range']
    omega
  have same := (List.subperm_of_subset List.nodup_range' among).perm_of_length_le long
  exact same.nodup_iff.mp List.nodup_range'

/-- Copies have what nodes have that their copies keep. -/
theorem inherits {P : Node → Prop}
    (own : ∀ i < g.size, P (g.node i)) (unnamed : ∀ n, P n → P n.unnamed)
    (ofType : ∀ n, ∀ type ∈ n.typeList, P n → P (n.ofType type)) :
    ∀ i < schemas.size, P (schemas.node i) := by
  have given : ∀ i < g.size, P (schemas.node i) := fun i inside => by
    rw [copies.kept i inside]
    exact own i inside
  have fixed : ∀ e ∈ narrows, P (schemas.node e.2) := by
    intro e he
    obtain ⟨_, _, _, _, same, listed, _⟩ := copies.narrowed e he
    rw [same]
    refine ofType _ _ listed ?_
    rcases copies.source_narrowed he with inside | ⟨d, hd, again, inside⟩
    · exact given _ inside
    · obtain ⟨_, _, _, _, copied⟩ := copies.stripped d hd
      rw [← again, copied]
      exact unnamed _ (given _ inside)
  intro i inside
  rcases copies.origin i inside with inside | ⟨d, hd, rfl⟩ | ⟨e, he, rfl⟩
  · exact given i inside
  · obtain ⟨source, shown, _, _, copied⟩ := copies.stripped d hd
    rw [copied]
    refine unnamed _ ?_
    rcases copies.shown_origin source shown with inside | ⟨e, he, same⟩
    · exact given _ inside
    · rw [← same]
      exact fixed e he
  · exact fixed e he

/-- Every copy has the parent of a node of the graph. -/
theorem parent_origin {i : NodeId} (inside : i < schemas.size) :
    ∃ j < g.size, (schemas.node i).parent = (g.node j).parent :=
  copies.inherits (P := fun n => ∃ j < g.size, n.parent = (g.node j).parent)
    (fun j own => ⟨j, own, rfl⟩) (fun _ h => h) (fun _ _ _ h => h) i inside

/-- Copies come after the parents of the nodes that they are made of. -/
theorem parentsFirst (first : g.ParentsFirst) : schemas.ParentsFirst := by
  intro i inside p parent
  by_cases own : i < g.size
  · rw [copies.kept i own] at parent
    exact first i own p parent
  · obtain ⟨j, hj, same⟩ := copies.parent_origin inside
    rw [same] at parent
    have above : p < g.size := Nat.lt_trans (first j hj p parent) hj
    exact Nat.lt_of_lt_of_le above (Nat.le_of_not_lt own)

theorem closed : schemas.Closed := by
  intro i inside s hs
  have below := copies.children i inside s hs
  cases s with
  | node j => exact Nat.lt_of_lt_of_le below copies.size_le
  | bool b => trivial
  | bare v => trivial

theorem narrowed_isText (names : g.NamesTypes) {e : (NodeId × Json) × NodeId} (he : e ∈ narrows) :
    e.1.2.isText = true := by
  have listed : ∃ i < g.size, e.1.2 ∈ (g.node i).typeList := by
    rcases copies.narrowed_key he with own | copied
    · obtain ⟨i, hi, he⟩ := List.mem_flatMap.mp own
      obtain ⟨type, listed, same⟩ := List.mem_map.mp he
      exact ⟨i, List.mem_range.mp hi, by rwa [← same]⟩
    · obtain ⟨d, hd, he⟩ := List.mem_flatMap.mp copied
      obtain ⟨type, listed, same⟩ := List.mem_map.mp he
      exact ⟨d.1, by simpa using (List.mem_filter.mp hd).2, by rwa [← same]⟩
  obtain ⟨i, inside, listed⟩ := listed
  exact Node.isText_of_mem_typeList (names i inside) listed

theorem narrowed_keysOnce (names : g.NamesTypes) : (narrows.map (·.1)).Nodup := by
  refine List.pairwise_map.mpr (copies.narrowedOnce.imp_of_mem ?_)
  intro e d he _ apart same
  have unlike := apart (congrArg Prod.fst same.symm)
  rw [← same, Json.alike_self_of_isText (copies.narrowed_isText names he)] at unlike
  cases unlike

theorem narrows_length_le (names : g.NamesTypes) :
    narrows.length ≤ 2 * (g.size * g.mostTypes) := by
  have once := copies.narrowed_keysOnce names
  have among : ∀ e ∈ narrows, e.1 ∈
      (List.range g.size).flatMap (fun i => (g.node i).typeList.map (i, ·)) ++
        (strips.filter (·.1 < g.size)).flatMap (fun d => (g.node d.1).typeList.map (d.2, ·)) :=
    fun e he => List.mem_append.mpr (copies.narrowed_key he)
  have total := length_le_of_keys once among
  have own : ((List.range g.size).flatMap fun i => (g.node i).typeList.map (i, ·)).length ≤
      (List.range g.size).length * g.mostTypes := by
    refine length_flatMap_le fun i hi => ?_
    simpa using Graph.typeList_length_le (List.mem_range.mp hi)
  have copied : ((strips.filter (·.1 < g.size)).flatMap
      fun d => (g.node d.1).typeList.map (d.2, ·)).length ≤
        (strips.filter (·.1 < g.size)).length * g.mostTypes := by
    refine length_flatMap_le fun d hd => ?_
    have below : d.1 < g.size := by simpa using (List.mem_filter.mp hd).2
    simpa using Graph.typeList_length_le below
  have fewer := Nat.mul_le_mul_right g.mostTypes copies.own_strips_length_le
  rw [List.length_append] at total
  rw [List.length_range] at own
  omega

/-- The graph grows to a size that its nodes and their types determine. -/
theorem schemas_size_le (names : g.NamesTypes) :
    schemas.size ≤ g.size * (2 + 4 * g.mostTypes) := by
  have size := copies.size
  have stripped := copies.strips_length_le
  have narrowed := copies.narrows_length_le names
  calc schemas.size
      ≤ 2 * g.size + 4 * (g.size * g.mostTypes) := by omega
    _ = g.size * (2 + 4 * g.mostTypes) := by ring

end Copies

namespace Builder

/-- No more can be built than nodes and copies in all categories. -/
theorem Sound.built_length_le (sound : b.Sound g) (names : g.NamesTypes) :
    b.built.length ≤ 18 * (g.size * (2 + 4 * g.mostTypes)) := by
  have among : ∀ e ∈ b.built, e.1 ∈ (List.range b.schemas.size).flatMap
      fun i => Category.all.map (i, ·) := by
    intro e he
    refine List.mem_flatMap.mpr ⟨e.1.1, List.mem_range.mpr (sound.built e he).1, ?_⟩
    exact List.mem_map.mpr ⟨e.1.2, Category.mem_all _, rfl⟩
  have entries := length_le_of_keys sound.builtOnce among
  have keys : ((List.range b.schemas.size).flatMap fun i => Category.all.map (i, ·)).length ≤
      (List.range b.schemas.size).length * 18 :=
    length_flatMap_le fun i _ => Nat.le_of_eq (by simp [Category.all])
  rw [List.length_range] at keys
  have size := sound.copies.schemas_size_le names
  omega

/-- Copies make a build no less deep. -/
theorem Sound.depth_le (sound : b.Sound g) : Build.depth g ≤ Build.depth b.schemas := by
  have types : g.mostTypes ≤ b.schemas.mostTypes := by
    refine Graph.mostTypes_le fun i below => ?_
    rw [← sound.copies.kept i below]
    exact Graph.typeList_length_le (Nat.lt_of_lt_of_le below sound.copies.size_le)
  have larger := Nat.mul_le_mul sound.copies.size_le
    (Nat.add_le_add_left (Nat.mul_le_mul_left 4 types) 2)
  rw [Build.depth_eq, Build.depth_eq]
  omega

end Builder
end LinkedSchema
