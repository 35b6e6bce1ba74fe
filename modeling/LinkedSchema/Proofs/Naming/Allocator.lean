import LinkedSchema.Naming.Allocator
import LinkedSchema.Proofs.Types.Labels
import Mathlib.Order.Bounds.Defs
/-! The allocator finds a free name. Its search for a numeral is told here as a loop without a
bound, which comes to an end since the names in use are finitely many. -/
namespace LinkedSchema
namespace UsedNames

variable {used : UsedNames} {base : String} {j k : Nat}

/-- The search for a numeral: it passes those that make a name in use and ends at the first other
one. -/
inductive Search (used : UsedNames) (base : String) : Nat → Nat → Prop
  | found {k : Nat} (free : base ++ k.repr ∉ used) : Search used base k k
  | next {j k : Nat} (taken : base ++ k.repr ∈ used) (rest : Search used base (k + 1) j) :
      Search used base k j

namespace Search

theorem isLeast (search : Search used base k j) :
    IsLeast {i | k ≤ i ∧ base ++ i.repr ∉ used} j := by
  induction search with
  | @found k free => exact ⟨⟨Nat.le_refl k, free⟩, fun i other => other.1⟩
  | @next j k taken rest ih =>
    obtain ⟨⟨later, free⟩, least⟩ := ih
    refine ⟨⟨Nat.le_of_succ_le later, free⟩, fun i ⟨from_k, other⟩ => ?_⟩
    refine least ⟨Nat.lt_of_le_of_ne from_k ?_, other⟩
    rintro rfl
    exact other taken

/-- A free numeral ahead brings the search to an end, at that one if not before. -/
theorem exists_of_free {i : Nat} (free : base ++ (k + i).repr ∉ used) :
    ∃ j ≤ k + i, Search used base k j := by
  induction i generalizing k with
  | zero => exact ⟨k, Nat.le_refl k, .found free⟩
  | succ i ih =>
    by_cases here : base ++ k.repr ∈ used
    · rw [← Nat.succ_add_eq_add_succ] at free
      obtain ⟨j, before, rest⟩ := ih free
      exact ⟨j, by omega, .next here rest⟩
    · exact ⟨k, Nat.le_add_right k _, .found here⟩

/-- With enough fuel to get there, the name is made of the numeral at which the search ends. -/
theorem numbered_eq (search : Search used base k j) {fuel : Nat} (enough : j ≤ k + fuel) :
    used.numbered base fuel k = base ++ j.repr := by
  induction search generalizing fuel with
  | @found k free =>
    rw [← intText_natCast] at free ⊢
    cases fuel with
    | zero => rfl
    | succ fuel => rw [numbered, if_neg fun there => free (List.contains_iff_mem.mp there)]
  | @next j k taken rest ih =>
    have later : k + 1 ≤ j := rest.isLeast.1.1
    rw [← intText_natCast] at taken
    cases fuel with
    | zero => omega
    | succ fuel =>
      rw [numbered, if_pos (List.contains_iff_mem.mpr taken)]
      exact ih (by omega)

end Search

theorem numeral_injective (h : base ++ j.repr = base ++ k.repr) : j = k := by
  rw [← intText_natCast, ← intText_natCast] at h
  refine TypeGraph.intText_injective (String.toList_injective ?_)
  have texts := congrArg String.toList h
  rw [String.toList_append, String.toList_append] at texts
  exact List.append_cancel_left texts

/-- One more numeral than there are names cannot be taken. -/
theorem exists_free_numeral (used : UsedNames) (base : String) (k : Nat) :
    ∃ i ≤ used.length, base ++ (k + i).repr ∉ used := by
  by_contra allTaken
  push Not at allTaken
  let numerals := (List.range (used.length + 1)).map fun i => base ++ (k + i).repr
  have distinct : numerals.Nodup := by
    refine List.Nodup.map (fun i j same => ?_) List.nodup_range
    exact Nat.add_left_cancel (numeral_injective same)
  have among : numerals ⊆ used := by
    intro name listed
    obtain ⟨i, below, rfl⟩ := List.mem_map.mp listed
    exact allTaken i (Nat.lt_succ_iff.mp (List.mem_range.mp below))
  have few := (List.subperm_of_subset distinct among).length_le
  rw [List.length_map, List.length_range] at few
  exact Nat.not_succ_le_self _ few

/-- The search comes to an end, and the name of a base in use is made of what it finds. -/
theorem exists_search (taken : base ∈ used) :
    ∃ k, Search used base 1 k ∧ used.fresh base = base ++ k.repr := by
  obtain ⟨i, few, free⟩ := exists_free_numeral used base 1
  obtain ⟨k, before, search⟩ := Search.exists_of_free free
  refine ⟨k, search, ?_⟩
  rw [fresh, if_pos (List.contains_iff_mem.mpr taken), search.numbered_eq (by omega)]

theorem fresh_of_not_mem (free : base ∉ used) : used.fresh base = base :=
  if_neg fun there => free (List.contains_iff_mem.mp there)

theorem fresh_not_mem (used : UsedNames) (base : String) : used.fresh base ∉ used := by
  by_cases taken : base ∈ used
  · obtain ⟨k, search, chosen⟩ := exists_search taken
    rw [chosen]
    exact search.isLeast.1.2
  · rwa [fresh_of_not_mem taken]

end UsedNames
end LinkedSchema
