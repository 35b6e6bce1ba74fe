import LinkedSchema.Entries
import Mathlib.Data.List.Forall2
/-! Looking up entries. -/
namespace LinkedSchema

section

variable {α β γ δ : Type} [BEq α] [LawfulBEq α] [BEq β] [LawfulBEq β]

theorem lookup_rel {S : γ → δ → Prop} {k : α} {j : β} {xs : List (α × γ)} {ys : List (β × δ)}
    (agree : List.Forall₂ (fun x y => (x.1 = k ↔ y.1 = j) ∧ S x.2 y.2) xs ys) :
    Option.Rel S (xs.lookup k) (ys.lookup j) := by
  induction agree with
  | nil => exact .none
  | @cons x y xs ys head _ ih =>
    obtain ⟨a, v⟩ := x
    obtain ⟨b, w⟩ := y
    obtain ⟨keys, related⟩ := head
    by_cases found : a = k
    · subst found
      have there : b = j := keys.mp rfl
      subst there
      simpa using related
    · have missed : b ≠ j := fun there => found (keys.mpr there)
      have here : (k == a) = false := by simpa using Ne.symm found
      have there : (j == b) = false := by simpa using Ne.symm missed
      simpa [List.lookup_cons, here, there] using ih

theorem mem_of_lookup {k : α} {v : γ} {xs : List (α × γ)} (found : xs.lookup k = some v) :
    (k, v) ∈ xs := by
  obtain ⟨before, after, rfl, _⟩ := List.lookup_eq_some_iff.mp found
  simp

theorem ne_of_lookup {k : α} {xs : List (α × γ)} (absent : xs.lookup k = none) :
    ∀ e ∈ xs, e.1 ≠ k := by
  intro e listed same
  have unlike := List.lookup_eq_none_iff.mp absent e listed
  simp [same] at unlike

theorem lookup_eq_of_mem {k : α} {v : γ} {xs : List (α × γ)} (once : (xs.map (·.1)).Nodup)
    (h : (k, v) ∈ xs) : xs.lookup k = some v := by
  induction xs with
  | nil => cases h
  | cons x xs ih =>
    obtain ⟨a, w⟩ := x
    obtain ⟨fresh, once⟩ := List.nodup_cons.mp once
    rcases List.mem_cons.mp h with same | later
    · cases same
      exact List.lookup_cons_self
    · have differs : k ≠ a := by
        rintro rfl
        exact fresh (List.mem_map.mpr ⟨_, later, rfl⟩)
      have other : (k == a) = false := by simpa using differs
      rw [List.lookup_cons, other]
      exact ih once later

end

namespace Entries

theorem lookup_map {α β : Type} (f : α → β) (entries : Entries α) (name : String) :
    (entries.map fun e => (e.1, f e.2)).lookup name = (entries.lookup name).map f := by
  induction entries with
  | nil => rfl
  | cons e rest ih =>
    obtain ⟨key, v⟩ := e
    rw [List.map_cons, List.lookup_cons, List.lookup_cons, ih]
    cases name == key <;> rfl

theorem mem_put {α : Type} {entries : Entries α} {name : String} {value : α} {e : String × α}
    (h : e ∈ entries.put name value) : e = (name, value) ∨ e ∈ entries := by
  induction entries with
  | nil => exact .inl (List.mem_singleton.mp h)
  | cons x rest ih =>
    obtain ⟨other, old⟩ := x
    unfold put at h
    split at h
    · rename_i same
      rcases List.mem_cons.mp h with rfl | h
      · exact .inl (by rw [eq_of_beq same])
      · exact .inr (List.mem_cons_of_mem _ h)
    · rcases List.mem_cons.mp h with rfl | h
      · exact .inr List.mem_cons_self
      · exact (ih h).imp_right (List.mem_cons_of_mem _)

theorem mem_merge {α : Type} {entries more : Entries α} {e : String × α}
    (h : e ∈ entries.merge more) : e ∈ more ∨ e ∈ entries := by
  induction more generalizing entries with
  | nil => exact .inr h
  | cons f more ih =>
    rcases ih h with h | h
    · exact .inl (List.mem_cons_of_mem _ h)
    · rcases mem_put h with rfl | h
      · exact .inl List.mem_cons_self
      · exact .inr h

/-- Of the values put under one name the last one counts. -/
theorem lookup_merge {α : Type} {entries more : Entries α} {name : String} :
    (entries.merge more).lookup name = (more.reverse.lookup name).or (entries.lookup name) := by
  induction more generalizing entries with
  | nil => rfl
  | cons e more ih =>
    change (Entries.merge (entries.put e.1 e.2) more).lookup name = _
    rw [ih, List.reverse_cons, List.lookup_append, Option.or_assoc]
    congr 1
    by_cases here : name = e.1
    · subst here
      rw [lookup_put_self, List.lookup_cons_self]
      rfl
    · have other : (name == e.1) = false := by simpa using here
      rw [lookup_put_ne entries here, List.lookup_cons, other]
      rfl

theorem lookup_getElem {α : Type} {fields : Entries α} (once : fields.names.Nodup) {i : Nat}
    (hi : i < fields.length) : fields.lookup fields[i].1 = some fields[i].2 :=
  lookup_eq_of_mem once (List.getElem_mem hi)

end Entries
end LinkedSchema
