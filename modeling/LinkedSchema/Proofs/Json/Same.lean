import LinkedSchema.Json.Value
import LinkedSchema.Proofs.Entries
/-! When two JSON values are the same. The order of the entries of an object means nothing, and
numbers of different kinds are different. -/
namespace LinkedSchema

namespace Json

/-- The same value under every name, and the same elements in the same order. Of two entries of one
name the first one counts. -/
inductive Same : Json → Json → Prop
  | null : Same .null .null
  | bool (b : Bool) : Same (.bool b) (.bool b)
  | int (n : Int) : Same (.int n) (.int n)
  | float (x : Float) : Same (.float x) (.float x)
  | str (s : String) : Same (.str s) (.str s)
  | arr {xs ys : List Json} : xs.length = ys.length →
      (∀ (i : Nat) v w, xs[i]? = some v → ys[i]? = some w → Same v w) → Same (.arr xs) (.arr ys)
  | obj {xs ys : Entries Json} :
      (∀ name, (xs.lookup name).isSome = (ys.lookup name).isSome) →
      (∀ name v w, xs.lookup name = some v → ys.lookup name = some w → Same v w) →
      Same (.obj xs) (.obj ys)

theorem Same.refl : (v : Json) → v.Same v
  | .null => .null
  | .bool b => .bool b
  | .int n => .int n
  | .float x => .float x
  | .str s => .str s
  | .arr xs => .arr rfl fun i v w hv hw => by
    have inside := List.sizeOf_lt_of_mem (List.mem_of_getElem? hv)
    rw [hv, Option.some.injEq] at hw
    exact hw ▸ Same.refl v
  | .obj xs => .obj (fun _ => rfl) fun name v w hv hw => by
    have inside := List.sizeOf_lt_of_mem (mem_of_lookup hv)
    rw [hv, Option.some.injEq] at hw
    exact hw ▸ Same.refl v
termination_by v => sizeOf v
decreasing_by
  · simp only [Json.arr.sizeOf_spec]
    omega
  · simp only [Prod.mk.sizeOf_spec] at inside
    simp only [Json.obj.sizeOf_spec]
    omega

theorem Same.symm {v w : Json} (h : v.Same w) : w.Same v := by
  induction h with
  | null => exact .null
  | bool b => exact .bool b
  | int n => exact .int n
  | float x => exact .float x
  | str s => exact .str s
  | arr length _ ih => exact .arr length.symm fun i v w hv hw => ih i w v hw hv
  | obj names _ ih =>
    exact .obj (fun name => (names name).symm) fun name v w hv hw => ih name w v hw hv

@[simp] theorem same_str_iff {s t : String} : Same (.str s) (.str t) ↔ s = t := by
  constructor
  · intro h
    cases h
    rfl
  · rintro rfl
    exact .str s

@[simp] theorem same_bool_iff {a b : Bool} : Same (.bool a) (.bool b) ↔ a = b := by
  constructor
  · intro h
    cases h
    rfl
  · rintro rfl
    exact .bool a

theorem same_arr_iff {xs ys : List Json} :
    Same (.arr xs) (.arr ys) ↔ List.Forall₂ Same xs ys := by
  rw [List.forall₂_iff_get]
  constructor
  · intro h
    cases h with
    | arr length same =>
      refine ⟨length, fun i hi hj => same i _ _ ?_ ?_⟩
      · exact List.getElem?_eq_getElem hi
      · exact List.getElem?_eq_getElem hj
  · rintro ⟨length, same⟩
    refine .arr length fun i v w hv hw => ?_
    obtain ⟨hi, rfl⟩ := List.getElem?_eq_some_iff.mp hv
    obtain ⟨hj, rfl⟩ := List.getElem?_eq_some_iff.mp hw
    exact same i hi hj

theorem same_obj_iff {xs ys : Entries Json} :
    Same (.obj xs) (.obj ys) ↔ ∀ name, Option.Rel Same (xs.lookup name) (ys.lookup name) := by
  constructor
  · intro h name
    cases h with
    | obj names same =>
      have both := names name
      cases hv : xs.lookup name with
      | none =>
        rw [hv, Option.isSome_none, eq_comm, Option.isSome_eq_false_iff, Option.isNone_iff_eq_none]
          at both
        rw [both]
        exact .none
      | some v =>
        rw [hv, Option.isSome_some, eq_comm, Option.isSome_iff_exists] at both
        obtain ⟨w, hw⟩ := both
        rw [hw]
        exact .some (same name v w hv hw)
  · intro same
    refine .obj (fun name => ?_) fun name v w hv hw => ?_
    · have related := same name
      revert related
      cases xs.lookup name <;> cases ys.lookup name <;> simp
    · have related := same name
      rwa [hv, hw, Option.rel_some_some] at related

end Json

namespace Entries

/-- The entries of an object some of whose fields are absent. -/
def present (fields : Entries (Option Json)) : Entries Json :=
  fields.filterMap fun e => e.2.map fun v => (e.1, v)

theorem present_cons {name : String} {value : Option Json} {fields : Entries (Option Json)} :
    present ((name, value) :: fields) =
      (value.map fun v => (name, v)).toList ++ fields.present := by
  cases value <;> rfl

theorem lookup_present {fields : Entries (Option Json)} (once : fields.names.Nodup)
    (name : String) : fields.present.lookup name = (fields.lookup name).join := by
  induction fields with
  | nil => rfl
  | cons e fields ih =>
    obtain ⟨key, value⟩ := e
    obtain ⟨fresh, once⟩ := List.nodup_cons.mp once
    have later := ih once
    by_cases here : name = key
    · subst here
      have absent : fields.lookup name = none := by
        rw [List.lookup_eq_none_iff]
        rintro e he
        have differs : name ≠ e.1 := by
          rintro rfl
          exact fresh (List.mem_map.mpr ⟨e, he, rfl⟩)
        simpa using differs
      cases value with
      | none => simpa [present, absent] using later
      | some v => simp [present]
    · have other : (name == key) = false := by simpa using here
      cases value with
      | none => simpa [present, List.lookup_cons, other] using later
      | some v => simpa [present, List.lookup_cons, other] using later

/-- Objects with the same possible fields are the same if their fields are. -/
theorem same_present_iff {xs ys : Entries (Option Json)} (names : xs.names = ys.names)
    (once : xs.names.Nodup) : Json.Same (.obj xs.present) (.obj ys.present) ↔
      List.Forall₂ (fun x y => Option.Rel Json.Same x.2 y.2) xs ys := by
  have once' : ys.names.Nodup := names ▸ once
  have length : xs.length = ys.length := by simpa [Entries.names] using congrArg List.length names
  have key : ∀ i (hi : i < xs.length) (hj : i < ys.length), xs[i].1 = ys[i].1 := by
    intro i hi hj
    have here := congrArg (·[i]?) names
    simpa [Entries.names, hi, hj] using here
  rw [Json.same_obj_iff]
  constructor
  · intro same
    refine List.forall₂_iff_get.mpr ⟨length, fun i hi hj => ?_⟩
    have related := same xs[i].1
    rw [lookup_present once, lookup_present once', lookup_getElem once hi, key i hi hj,
      lookup_getElem once' hj] at related
    exact related
  · intro same name
    have pairs : List.Forall₂
        (fun x y => (x.1 = name ↔ y.1 = name) ∧ Option.Rel Json.Same x.2 y.2) xs ys := by
      refine List.forall₂_iff_get.mpr ⟨length, fun i hi hj => ⟨?_, ?_⟩⟩
      · exact iff_of_eq (congrArg (· = name) (key i hi hj))
      · exact (List.forall₂_iff_get.mp same).2 i hi hj
    have related := lookup_rel pairs
    rw [lookup_present once, lookup_present once']
    revert related
    cases xs.lookup name <;> cases ys.lookup name <;> simp

end Entries

theorem Json.same_pair_iff {a b : String} (differ : a ≠ b) {v v' w w' : Json} :
    Same (.obj [(a, v), (b, v')]) (.obj [(a, w), (b, w')]) ↔ v.Same w ∧ v'.Same w' := by
  have names : Entries.names [(a, some v), (b, some v')] =
      Entries.names [(a, some w), (b, some w')] := rfl
  have once : (Entries.names [(a, some v), (b, some v')]).Nodup := by simp [Entries.names, differ]
  refine (Entries.same_present_iff names once).trans ?_
  simp only [List.forall₂_cons, Option.rel_some_some, List.forall₂_nil_left_iff, and_true]

end LinkedSchema
