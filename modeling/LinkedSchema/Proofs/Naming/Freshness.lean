import LinkedSchema.Proofs.Naming.Allocator
/-! Allocated names are new and have the smallest numerals they can have, whatever was asked for
before. -/
namespace LinkedSchema
namespace UsedNames

variable {used last : UsedNames} {sources names : List String}

/-- What one call does to the names in use. -/
structure Allocation (used : UsedNames) (source name : String) (taken : UsedNames) : Prop where
  /-- The name is taken, and all others stay what they were. -/
  added : ∀ other, other ∈ taken ↔ other = name ∨ other ∈ used
  new : name ∉ used
  plain : base source ∉ used → name = base source
  /-- The search comes to an end, and the smallest numeral that leads to a free name is found. -/
  numeral : base source ∈ used → ∃ k, Search used (base source) 1 k ∧
    IsLeast {i | 1 ≤ i ∧ base source ++ i.repr ∉ used} k ∧
    name = base source ++ k.repr

theorem allocation_allocate (used : UsedNames) (source : String) :
    Allocation used source (used.allocate source).1 (used.allocate source).2 where
  added other := List.mem_cons
  new := fresh_not_mem used _
  plain free := fresh_of_not_mem free
  numeral there := by
    obtain ⟨k, search, chosen⟩ := exists_search there
    exact ⟨k, search, search.isLeast, chosen⟩

/-- Calls one after the other, each with the names that the ones before it have taken. -/
inductive Allocations : UsedNames → List String → List String → UsedNames → Prop
  | nil {used : UsedNames} : Allocations used [] [] used
  | cons {used taken last : UsedNames} {source name : String} {sources names : List String}
      (call : Allocation used source name taken) (rest : Allocations taken sources names last) :
      Allocations used (source :: sources) (name :: names) last

theorem allocations_allocateAll (used : UsedNames) (sources : List String) :
    Allocations used sources (used.allocateAll sources).1 (used.allocateAll sources).2 := by
  induction sources generalizing used with
  | nil => exact .nil
  | cons source rest ih => exact .cons (allocation_allocate used source) (ih _)

namespace Allocations

theorem mem_iff (run : Allocations used sources names last) :
    ∀ other, other ∈ last ↔ other ∈ names ∨ other ∈ used := by
  induction run with
  | nil => simp
  | cons call rest ih =>
    intro other
    rw [ih, call.added, List.mem_cons]
    tauto

theorem not_mem (run : Allocations used sources names last) : ∀ name ∈ names, name ∉ used := by
  induction run with
  | nil => nofun
  | cons call rest ih =>
    intro name listed there
    rcases List.mem_cons.mp listed with rfl | listed
    · exact call.new there
    · exact ih name listed ((call.added name).mpr (.inr there))

theorem nodup (run : Allocations used sources names last) : names.Nodup := by
  induction run with
  | nil => exact List.nodup_nil
  | cons call rest ih =>
    refine List.nodup_cons.mpr ⟨fun again => ?_, ih⟩
    exact rest.not_mem _ again ((call.added _).mpr (.inl rfl))

end Allocations

/-- Names allocated one after the other are new and all different. Each call comes to an end, takes
the name that it gives and no other, and gives its base if that is free, and else the base with the
smallest numeral that makes it a free name. -/
theorem allocateAll_fresh (used : UsedNames) (sources : List String) :
    Allocations used sources (used.allocateAll sources).1 (used.allocateAll sources).2 ∧
    (used.allocateAll sources).1.Nodup ∧
    (∀ name ∈ (used.allocateAll sources).1, name ∉ used) ∧
    ∀ other, other ∈ (used.allocateAll sources).2 ↔
      other ∈ (used.allocateAll sources).1 ∨ other ∈ used := by
  have run := allocations_allocateAll used sources
  exact ⟨run, run.nodup, run.not_mem, run.mem_iff⟩

/-- A base may itself be the numbered name of another one. -/
example : (allocateAll [] ["Foo1", "Foo", "Foo", "Foo1", "!"]).1 =
    ["Foo1", "Foo", "Foo2", "Foo11", "NoName"] := by decide +kernel

end UsedNames
end LinkedSchema
