import LinkedSchema.Proofs.Entries
import Mathlib.Data.List.Induction
import Mathlib.Data.List.Nodup
/-! Merging entries into others: a name stays where it first comes up, and its last value counts. -/
namespace LinkedSchema
section

variable {α : Type} [BEq α] [LawfulBEq α] {xs ys : List α} {x : α}

theorem eraseDups_concat_old (old : x ∈ xs) : (xs ++ [x]).eraseDups = xs.eraseDups := by
  simp [List.eraseDups_append, List.removeAll, old]

theorem eraseDups_concat_new (new : x ∉ xs) : (xs ++ [x]).eraseDups = xs.eraseDups ++ [x] := by
  simp [List.eraseDups_append, List.removeAll, new, List.eraseDups_cons]

theorem eraseDups_append_eraseDups : (xs ++ ys.eraseDups).eraseDups = (xs ++ ys).eraseDups := by
  induction ys using List.reverseRecOn with
  | nil => rfl
  | append_singleton ys y ih =>
    rw [← List.append_assoc]
    by_cases old : y ∈ ys
    · rw [eraseDups_concat_old old, eraseDups_concat_old (List.mem_append_right _ old), ih]
    · rw [eraseDups_concat_new old, ← List.append_assoc]
      by_cases before : y ∈ xs
      · rw [eraseDups_concat_old (List.mem_append_left _ before),
          eraseDups_concat_old (List.mem_append_left _ before), ih]
      · rw [eraseDups_concat_new (by simp [old, before]), eraseDups_concat_new (by simp [old, before]),
          ih]

theorem eraseDups_of_nodup (once : xs.Nodup) : xs.eraseDups = xs := by
  induction xs with
  | nil => rfl
  | cons x xs ih =>
    obtain ⟨fresh, once⟩ := List.nodup_cons.mp once
    have others : xs.filter (fun y => !y == x) = xs := by
      refine List.filter_eq_self.mpr fun y hy => ?_
      have differs : y ≠ x := fun same => fresh (same ▸ hy)
      simpa using differs
    rw [List.eraseDups_cons, others, ih once]

end
namespace Entries

variable {α : Type} {entries more : Entries α} {name : String} {value : α}

theorem names_put_old (old : name ∈ entries.names) :
    (entries.put name value).names = entries.names := by
  induction entries with
  | nil => cases old
  | cons e rest ih =>
    obtain ⟨other, v⟩ := e
    by_cases same : other = name
    · simp [put, names, same]
    · have later := ih ((List.mem_cons.mp old).resolve_left (Ne.symm same))
      simpa [put, names, same] using later

theorem names_put_new (new : name ∉ entries.names) :
    (entries.put name value).names = entries.names ++ [name] := by
  induction entries with
  | nil => rfl
  | cons e rest ih =>
    obtain ⟨other, v⟩ := e
    obtain ⟨differs, new⟩ := not_or.mp (mt List.mem_cons.mpr new)
    have later := ih new
    simpa [put, names, Ne.symm differs] using later

theorem nodup_put (once : entries.names.Nodup) : (entries.put name value).names.Nodup := by
  by_cases old : name ∈ entries.names
  · rwa [names_put_old old]
  · rw [names_put_new old]
    exact List.concat_eq_append ▸ once.concat old

theorem merge_append (entries xs ys : Entries α) :
    entries.merge (xs ++ ys) = (entries.merge xs).merge ys :=
  List.foldl_append

theorem nodup_merge (once : entries.names.Nodup) : (entries.merge more).names.Nodup := by
  induction more generalizing entries with
  | nil => exact once
  | cons e more ih => exact ih (nodup_put once)

/-- Names stand in the order in which they first come up. -/
theorem names_merge (once : entries.names.Nodup) :
    (entries.merge more).names = (entries.names ++ more.names).eraseDups := by
  induction more using List.reverseRecOn with
  | nil =>
    show entries.names = (entries.names ++ []).eraseDups
    rw [List.append_nil, eraseDups_of_nodup once]
  | append_singleton more e ih =>
    have last : names (more ++ [e]) = names more ++ [e.1] := List.map_append
    rw [merge_append, last, ← List.append_assoc]
    show ((entries.merge more).put e.1 e.2).names = _
    by_cases old : e.1 ∈ entries.names ++ names more
    · rw [eraseDups_concat_old old, names_put_old, ih]
      rwa [ih, List.mem_eraseDups]
    · rw [eraseDups_concat_new old, names_put_new, ih]
      rwa [ih, List.mem_eraseDups]

theorem lookup_reverse (once : entries.names.Nodup) (name : String) :
    entries.reverse.lookup name = entries.lookup name := by
  ext value
  have back : (entries.reverse.map (·.1)).Nodup := by
    rw [List.map_reverse, List.nodup_reverse]
    exact once
  exact ⟨fun found => lookup_eq_of_mem once (List.mem_reverse.mp (mem_of_lookup found)),
    fun found => lookup_eq_of_mem back (List.mem_reverse.mpr (mem_of_lookup found))⟩

/-- Entries with the same names in the same order and the same values are the same. -/
theorem ext_lookup {xs ys : Entries α} (once : xs.names.Nodup) (same : xs.names = ys.names)
    (values : ∀ name, xs.lookup name = ys.lookup name) : xs = ys := by
  refine List.ext_getElem (by simpa [names] using congrArg List.length same) fun i hi hj => ?_
  have name : xs[i].1 = ys[i].1 := by
    have at_i := congrArg (·[i]?) same
    simpa [names, hi, hj] using at_i
  have value := values xs[i].1
  rw [lookup_getElem once hi, name, lookup_getElem (same ▸ once) hj] at value
  exact Prod.ext name (Option.some.inj value)

theorem merge_nil (once : entries.names.Nodup) : merge [] entries = entries := by
  have alone : (names ([] : Entries α)).Nodup := List.nodup_nil
  apply ext_lookup (nodup_merge alone)
  · rw [names_merge alone]
    exact eraseDups_of_nodup once
  · intro name
    simp [lookup_merge, lookup_reverse once]

/-- What is merged by itself first makes no difference when it is merged into entries. -/
theorem merge_merged (once : entries.names.Nodup) :
    entries.merge (merge [] more) = entries.merge more := by
  have alone : (names ([] : Entries α)).Nodup := List.nodup_nil
  apply ext_lookup (nodup_merge once)
  · rw [names_merge once, names_merge once, names_merge alone]
    exact eraseDups_append_eraseDups
  · intro name
    simp [lookup_merge, lookup_reverse (nodup_merge alone)]

end Entries
end LinkedSchema
