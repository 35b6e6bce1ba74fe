import LinkedSchema.Proofs.Types.Order
import Mathlib.Data.List.NodupEquivFin
/-! The labels of an export. Types without a label are referred to once at most, and no two types
have one label. -/
namespace LinkedSchema

/-- The text of a natural number is its decimal numeral. -/
theorem intText_natCast (n : Nat) : intText n = n.repr := by
  have sign : ¬ (n : Int) < 0 := Int.not_lt.mpr (Int.natCast_nonneg n)
  rw [intText, if_neg sign, Int.natAbs_natCast]
  exact String.empty_append

namespace TypeGraph

variable {g : TypeGraph} {root t u p q : TypeId} {order references : List TypeId} {label : String}

theorem intText_injective {j k : Nat} (h : intText j = intText k) : j = k := by
  have digits : Nat.toDigits 10 j = Nat.toDigits 10 k := by
    have texts := congrArg String.toList h
    rwa [intText_natCast, intText_natCast, Nat.repr, Nat.repr, String.toList_ofList,
      String.toList_ofList] at texts
  rw [← Nat.ofDigitChars_ten_toDigits (n := j), digits, Nat.ofDigitChars_ten_toDigits]

/-- The label of a shared type. -/
def numberLabel (k : Nat) : String := "#" ++ intText k

theorem numberLabel_injective {j k : Nat} (h : numberLabel j = numberLabel k) : j = k := by
  refine intText_injective (String.toList_injective ?_)
  have texts := congrArg String.toList h
  rw [numberLabel, numberLabel, String.toList_append, String.toList_append] at texts
  exact List.append_cancel_left texts

/-- The names of the types below a root are different ones, and none looks like a label of a shared
type. -/
structure WellNamed (g : TypeGraph) (root : TypeId) : Prop where
  apart : ∀ t u name, g.Reaches root t → g.Reaches root u →
    (g.node t).standaloneName = some name → (g.node u).standaloneName = some name → t = u
  unnumbered : ∀ t name, g.Reaches root t → (g.node t).standaloneName = some name →
    ∀ k : Nat, name ≠ numberLabel k

theorem label_of_mem {numbered : Nat} (h : (t, label) ∈ g.labels references numbered order) :
    t ∈ order ∧ ((g.node t).standaloneName = some label ∨
      (g.node t).standaloneName = none ∧ ∃ k, numbered < k ∧ label = numberLabel k) := by
  induction order generalizing numbered with
  | nil => cases h
  | cons s rest ih =>
    rw [labels] at h
    split at h
    · rename_i name named
      rcases List.mem_cons.mp h with same | later
      · cases same
        exact ⟨List.mem_cons_self, .inl named⟩
      · obtain ⟨listed, source⟩ := ih later
        exact ⟨List.mem_cons_of_mem _ listed, source⟩
    · rename_i unnamed
      split at h
      · rcases List.mem_cons.mp h with same | later
        · cases same
          exact ⟨List.mem_cons_self, .inr ⟨unnamed, numbered + 1, Nat.lt_succ_self _, rfl⟩⟩
        · obtain ⟨listed, named | ⟨none, k, above, same⟩⟩ := ih later
          · exact ⟨List.mem_cons_of_mem _ listed, .inl named⟩
          · refine ⟨List.mem_cons_of_mem _ listed, .inr ⟨none, k, ?_, same⟩⟩
            omega
      · obtain ⟨listed, source⟩ := ih h
        exact ⟨List.mem_cons_of_mem _ listed, source⟩

/-- A type without a label has no name and is not shared. -/
theorem unlabelled {numbered : Nat} (listed : t ∈ order)
    (h : (g.labels references numbered order).lookup t = none) :
    (g.node t).standaloneName = none ∧ references.count t ≤ 1 := by
  have skip : ∀ {s : TypeId} {label : String} {more : List (TypeId × String)},
      List.lookup t ((s, label) :: more) = none → t ≠ s ∧ more.lookup t = none := by
    intro s label more absent
    rw [List.lookup_cons] at absent
    split at absent
    · cases absent
    · rename_i other
      exact ⟨by simpa using other, absent⟩
  induction order generalizing numbered with
  | nil => cases listed
  | cons s rest ih =>
    rw [labels] at h
    split at h
    · obtain ⟨other, absent⟩ := skip h
      exact ih ((List.mem_cons.mp listed).resolve_left other) absent
    · rename_i unnamed
      split at h
      · obtain ⟨other, absent⟩ := skip h
        exact ih ((List.mem_cons.mp listed).resolve_left other) absent
      · rename_i few
        rcases List.mem_cons.mp listed with rfl | later
        · exact ⟨unnamed, Nat.not_lt.mp few⟩
        · exact ih later h

/-- No two types have one label. -/
theorem labels_nodup (names : g.WellNamed root) (reached : ∀ t ∈ order, g.Reaches root t)
    (once : order.Nodup) {numbered : Nat} :
    ((g.labels references numbered order).map (·.2)).Nodup := by
  induction order generalizing numbered with
  | nil => exact List.nodup_nil
  | cons s rest ih =>
    obtain ⟨new, once⟩ := List.nodup_cons.mp once
    have here := reached s List.mem_cons_self
    have later : ∀ t ∈ rest, g.Reaches root t := fun t ht => reached t (List.mem_cons_of_mem _ ht)
    rw [labels]
    split
    · rename_i name named
      refine List.nodup_cons.mpr ⟨fun again => ?_, ih later once⟩
      obtain ⟨⟨u, label⟩, hu, same⟩ := List.mem_map.mp again
      have same : label = name := same
      subst same
      obtain ⟨listed, other | ⟨_, k, _, number⟩⟩ := label_of_mem hu
      · have same : s = u := names.apart s u label here (later u listed) named other
        exact new (same ▸ listed)
      · exact names.unnumbered s label here named k number
    · split
      · refine List.nodup_cons.mpr ⟨fun again => ?_, ih later once⟩
        obtain ⟨⟨u, label⟩, hu, same⟩ := List.mem_map.mp again
        have same : label = numberLabel (numbered + 1) := same
        obtain ⟨listed, other | ⟨_, k, above, number⟩⟩ := label_of_mem hu
        · exact names.unnumbered u label (later u listed) other (numbered + 1) same
        · have equal := numberLabel_injective (same.symm.trans number)
          omega
      · exact ih later once

section References

variable {α β : Type} [DecidableEq β] {f : α → List β} {x y : α} {b : β} {xs : List α}

theorem count_le_count_flatMap (h : x ∈ xs) : (f x).count b ≤ (xs.flatMap f).count b := by
  obtain ⟨before, after, rfl⟩ := List.append_of_mem h
  simp only [List.flatMap_append, List.flatMap_cons, List.count_append]
  omega

theorem two_le_count_flatMap (hx : x ∈ xs) (hy : y ∈ xs) (other : x ≠ y) (bx : b ∈ f x)
    (byY : b ∈ f y) : 2 ≤ (xs.flatMap f).count b := by
  have inX := List.count_pos_iff.mpr bx
  have inY := List.count_pos_iff.mpr byY
  induction xs with
  | nil => cases hx
  | cons z xs ih =>
    rw [List.flatMap_cons, List.count_append]
    rcases List.mem_cons.mp hx with rfl | laterX
    · have laterY := (List.mem_cons.mp hy).resolve_left other.symm
      have := count_le_count_flatMap (f := f) (b := b) laterY
      omega
    · rcases List.mem_cons.mp hy with rfl | laterY
      · have := count_le_count_flatMap (f := f) (b := b) laterX
        omega
      · have := ih laterX laterY
        omega

end References

/-- A type that is referred to once at most, by one type below the root, is not the root. -/
theorem ne_root_of_refers (few : (g.allReferences root order).count t ≤ 1) (hp : p ∈ order)
    (edge : g.Refers p t) : t ≠ root := by
  rintro rfl
  rw [allReferences, List.count_cons_self] at few
  have here := List.count_pos_iff.mpr edge
  have among := count_le_count_flatMap (f := fun t => (g.node t).references) (b := t) hp
  omega

theorem count_references_le (few : (g.allReferences root order).count t ≤ 1) (hp : p ∈ order) :
    (g.node p).references.count t ≤ 1 := by
  rw [allReferences, List.count_cons] at few
  have among := count_le_count_flatMap (f := fun t => (g.node t).references) (b := t) hp
  omega

theorem referrer_unique (few : (g.allReferences root order).count t ≤ 1) (hp : p ∈ order)
    (hq : q ∈ order) (first : g.Refers p t) (second : g.Refers q t) : p = q := by
  by_contra other
  rw [allReferences, List.count_cons] at few
  have among := two_le_count_flatMap (f := fun t => (g.node t).references) hp hq other first second
  omega

/-- A type that is referred to once has one place among the references. -/
theorem index_unique {i j : Nat} {xs : List TypeId} (few : xs.count t ≤ 1) (hi : xs[i]? = some t)
    (hj : xs[j]? = some t) : i = j := by
  by_contra other
  obtain ⟨inside, here⟩ := List.getElem?_eq_some_iff.mp hi
  obtain ⟨inside', here'⟩ := List.getElem?_eq_some_iff.mp hj
  have twice : 2 ≤ xs.count t := by
    rw [← List.duplicate_iff_two_le_count, List.duplicate_iff_exists_distinct_get]
    rcases Nat.lt_or_gt_of_ne other with below | above
    · exact ⟨⟨i, inside⟩, ⟨j, inside'⟩, below, here.symm, here'.symm⟩
    · exact ⟨⟨j, inside'⟩, ⟨i, inside⟩, above, here'.symm, here.symm⟩
  omega

/-- What is written in place stands after the type that it is written in. -/
theorem idxOf_lt_of_unlabelled (visits : g.Visits [root] [] order)
    (few : (g.allReferences root order).count u ≤ 1) (listed : t ∈ order) (edge : g.Refers t u) :
    order.idxOf t < order.idxOf u := by
  have once := visits.nodup
  have reached : u ∈ order := by simpa using visits.closed t listed u edge
  obtain ⟨before, after, split⟩ := List.append_of_mem reached
  rcases visits.met_from before u after split with start | ⟨p, hp, source⟩
  · exact absurd (List.mem_singleton.mp start) (ne_root_of_refers few listed edge)
  · have earlier : p ∈ order := split ▸ List.mem_append_left _ hp
    have same : p = t := referrer_unique few earlier listed source edge
    subst same
    rw [split] at once ⊢
    have apart : u ∉ before := fun again =>
      (List.nodup_append.mp once).2.2 u again u List.mem_cons_self rfl
    rw [List.idxOf_append_of_mem hp, List.idxOf_append_of_notMem apart]
    have inside := List.idxOf_lt_length_of_mem hp
    omega

end TypeGraph
end LinkedSchema
