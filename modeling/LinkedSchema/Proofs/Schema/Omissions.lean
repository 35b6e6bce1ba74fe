import LinkedSchema.Proofs.Entries
import LinkedSchema.Proofs.Schema.Places
/-! Documents without some fields of some of their objects, and documents that are the same but for
these fields. -/
namespace LinkedSchema

variable {d e : Document} {x y : Entries Json} {v w : Json} {name : String}

/-- Fields that are left out of the objects in the places of schemas that meet a test. -/
structure Omission where
  names : List String
  applies : Entries Json → Bool

namespace Omission

variable (o : Omission)

/-- The fields of an object but for those that are left out of it. -/
def shorten (fields rest : Entries Json) : Entries Json :=
  if o.applies fields then rest.filter fun e => !o.names.contains e.1 else rest

mutual

/-- What is left of a value under a keyword that calls for a value of a shape. -/
def value (o : Omission) : Container → Json → Json
  | .map, .obj fields => .obj (entries o fields)
  | _, .obj given => .obj (o.shorten given (fields o given))
  | _, .arr items => .arr (values o items)
  | _, v => v

def values (o : Omission) : List Json → List Json
  | [] => []
  | v :: rest => value o .single v :: values o rest

def entries (o : Omission) : List (String × Json) → List (String × Json)
  | [] => []
  | (name, v) :: rest => (name, value o .single v) :: entries o rest

def fields (o : Omission) : List (String × Json) → List (String × Json)
  | [] => []
  | (name, v) :: rest =>
    (name, match schemaKeywords.lookup name with
      | some shape => value o shape v
      | none => v) :: fields o rest

end

/-- What is left of the value of a field. -/
def under (name : String) (v : Json) : Json :=
  match schemaKeywords.lookup name with
  | some shape => o.value shape v
  | none => v

/-- What is left of an object. -/
def object (fields : Entries Json) : Entries Json := o.shorten fields (o.fields fields)

def document (d : Document) : Document where
  root := o.value .single d.root
  parts := o.entries d.parts

/-- An omission of fields that are no schemas and no links. It does not turn an object into a link,
and whether it applies to an object can be told from what is left. -/
structure Lawful : Prop where
  plain : ∀ name ∈ o.names, schemaKeywords.lookup name = none
  apart : "$link" ∉ o.names
  more : ∀ fields, o.applies fields = true →
    ∃ name ∉ o.names, name ≠ "$link" ∧ (fields.lookup name).isSome
  stable : ∀ x y : Entries Json, (∀ name ∉ o.names,
    (x.lookup name).map (o.under name) = (y.lookup name).map (o.under name)) →
      o.applies x = o.applies y

variable {o}

/-- Nothing is left out below a field that is no schema. -/
theorem map_under (plain : schemaKeywords.lookup name = none) (found : Option Json) :
    found.map (o.under name) = found := by
  have under : o.under name = fun v => v := by
    funext v
    rw [Omission.under, plain]
  rw [under, Option.map_id']

theorem values_eq (values : List Json) : o.values values = values.map (o.value .single) := by
  induction values with
  | nil => rfl
  | cons v rest ih => rw [Omission.values, ih, List.map_cons]

theorem entries_eq (entries : Entries Json) :
    o.entries entries = entries.map fun e => (e.1, o.value .single e.2) := by
  induction entries with
  | nil => rfl
  | cons e rest ih => rw [Omission.entries, ih, List.map_cons]

theorem fields_eq (fields : Entries Json) :
    o.fields fields = fields.map fun e => (e.1, o.under e.1 e.2) := by
  induction fields with
  | nil => rfl
  | cons e rest ih =>
    rw [Omission.fields, ih, List.map_cons]
    rfl

theorem lookup_fields (fields : Entries Json) (name : String) :
    (o.fields fields).lookup name = (fields.lookup name).map (o.under name) := by
  rw [fields_eq]
  induction fields with
  | nil => rfl
  | cons e rest ih =>
    obtain ⟨key, v⟩ := e
    rw [List.map_cons, List.lookup_cons, List.lookup_cons, ih]
    by_cases same : name = key
    · subst same
      simp
    · have other : (name == key) = false := by simpa using same
      simp only [other]

theorem lookup_object (kept : name ∉ o.names) (fields : Entries Json) :
    (o.object fields).lookup name = (fields.lookup name).map (o.under name) := by
  rw [← lookup_fields, object, shorten]
  split
  · generalize o.fields fields = rest
    induction rest with
    | nil => rfl
    | cons e rest ih =>
      obtain ⟨key, v⟩ := e
      rw [List.filter_cons]
      by_cases same : name = key
      · subst same
        simp [kept]
      · have other : (name == key) = false := by simpa using same
        rw [List.lookup_cons, other, ← ih]
        split
        · rw [List.lookup_cons, other]
        · rfl
  · rfl

theorem value_obj {shape : Container} (other : shape ≠ .map) (fields : Entries Json) :
    o.value shape (.obj fields) = .obj (o.object fields) := by
  cases shape with
  | map => exact absurd rfl other
  | _ => simp [value, object]

theorem value_map (fields : Entries Json) : o.value .map (.obj fields) =
    .obj (fields.map fun e => (e.1, o.value .single e.2)) := by
  rw [value, entries_eq]

theorem value_arr (shape : Container) (items : List Json) :
    o.value shape (.arr items) = .arr (items.map (o.value .single)) := by
  cases shape <;> simp [value, values_eq]

/-- A value that is neither a list nor an object is left as it is. -/
theorem value_of_flat {shape : Container} (noList : v.isArr = false) (noObject : v.isObj = false) :
    o.value shape v = v := by
  cases v with
  | arr items => cases noList
  | obj fields => cases noObject
  | _ => cases shape <;> simp [value]

theorem isObj_value (shape : Container) (v : Json) : (o.value shape v).isObj = v.isObj := by
  cases v <;> cases shape <;> simp [value, Json.isObj]

theorem isArr_value (shape : Container) (v : Json) : (o.value shape v).isArr = v.isArr := by
  cases v <;> cases shape <;> simp [value, Json.isArr]

/-- Values of which the same is left are two objects, two lists of such values, or the same. -/
theorem cases_of_value_eq {shape : Container} (same : o.value shape v = o.value shape w) :
    (∃ x y, v = .obj x ∧ w = .obj y) ∨
    (∃ vs ws, v = .arr vs ∧ w = .arr ws ∧
      List.Forall₂ (fun v w => o.value .single v = o.value .single w) vs ws) ∨
    v = w ∧ v.isArr = false ∧ v.isObj = false := by
  have objects : v.isObj = w.isObj := by rw [← isObj_value shape, same, isObj_value]
  have lists : v.isArr = w.isArr := by rw [← isArr_value shape, same, isArr_value]
  by_cases object : v.isObj = true
  · left
    cases v with
    | obj x =>
      cases w with
      | obj y => exact ⟨x, y, rfl, rfl⟩
      | _ => cases objects
    | _ => cases object
  by_cases list : v.isArr = true
  · right; left
    cases v with
    | arr vs =>
      cases w with
      | arr ws =>
        rw [value_arr, value_arr, Json.arr.injEq] at same
        have both : List.Forall₂ Eq (vs.map (o.value .single)) (ws.map (o.value .single)) := by
          rw [same, List.forall₂_eq_eq_eq]
        exact ⟨vs, ws, rfl, rfl, List.forall₂_map_right_iff.mp (List.forall₂_map_left_iff.mp both)⟩
      | _ => cases lists
    | _ => cases list
  · right; right
    rw [Bool.not_eq_true] at object list
    rw [value_of_flat list object, value_of_flat (lists ▸ list) (objects ▸ object)] at same
    exact ⟨same, list, object⟩

/-- The fields of maps of which the same is left have the same names and values. -/
theorem forall₂_of_map_eq (same : o.value .map (.obj x) = o.value .map (.obj y)) :
    List.Forall₂ (fun a b => a.1 = b.1 ∧ o.value .single a.2 = o.value .single b.2) x y := by
  rw [value_map, value_map, Json.obj.injEq] at same
  have both : List.Forall₂ Eq (x.map fun e => (e.1, o.value .single e.2))
      (y.map fun e => (e.1, o.value .single e.2)) := by
    rw [same, List.forall₂_eq_eq_eq]
  exact (List.forall₂_map_right_iff.mp (List.forall₂_map_left_iff.mp both)).imp
    fun a b same => Prod.mk.inj same

namespace Lawful

variable (lawful : o.Lawful)
include lawful

theorem applies_eq (same : o.object x = o.object y) : o.applies x = o.applies y := by
  refine lawful.stable x y fun name kept => ?_
  rw [← lookup_object kept, ← lookup_object kept, same]

/-- The fields that are left are the same, and all fields are where nothing is left out. -/
theorem lookup_eq (same : o.object x = o.object y) (name : String) :
    (x.lookup name).map (o.under name) = (y.lookup name).map (o.under name) ∨
      name ∈ o.names ∧ o.applies x = true := by
  by_cases kept : name ∈ o.names
  · cases applies : o.applies x with
    | true => exact .inr ⟨kept, rfl⟩
    | false =>
      have applies' : o.applies y = false := lawful.applies_eq same ▸ applies
      rw [object, object, shorten, shorten, applies, applies'] at same
      rw [← lookup_fields, ← lookup_fields]
      exact .inl (congrArg _ same)
  · rw [← lookup_object kept, ← lookup_object kept, same]
    exact .inl rfl

/-- A field that is no schema is the same in objects of which the same is left, unless it may have
been left out of them. -/
theorem plain_eq (same : o.object x = o.object y) (plain : schemaKeywords.lookup name = none) :
    y.lookup name = x.lookup name ∨ name ∈ o.names ∧ o.applies x = true := by
  have lookup := lawful.lookup_eq same name
  rw [map_under plain, map_under plain] at lookup
  exact lookup.imp_left Eq.symm

/-- What is left of a link is the link, and what is left of another object is none. -/
theorem link_object (fields : Entries Json) :
    (Json.obj (o.object fields)).link? = (Json.obj fields).link? := by
  cases applies : o.applies fields with
  | true =>
    obtain ⟨name, kept, other, given⟩ := lawful.more fields applies
    have unlike : (name == "$link") = false := by simpa using other
    have none (fields : Entries Json) (given : (fields.lookup name).isSome) :
        (Json.obj fields).link? = none := by
      unfold Json.link?
      split
      · rename_i same
        cases same
        simp [List.lookup_cons, unlike] at given
      · rfl
    rw [none fields given, none _ (by rwa [lookup_object kept, Option.isSome_map])]
  | false =>
    have same : o.object fields = fields.map fun e => (e.1, o.under e.1 e.2) := by
      rw [object, shorten, applies, ← fields_eq]
      rfl
    have link (v : Json) : o.under "$link" v = v := by
      rw [under, show schemaKeywords.lookup "$link" = none from rfl]
    rw [same]
    match fields with
    | [] => rfl
    | [(key, v)] =>
      by_cases named : key = "$link"
      · subst named
        rw [List.map_singleton, link]
      · unfold Json.link?
        split
        · rename_i single
          cases single
          exact absurd rfl named
        · split
          · rename_i single
            cases single
            exact absurd rfl named
          · rfl
    | _ :: _ :: _ => simp [Json.link?]

theorem link_value (v : Json) : (o.value .single v).link? = v.link? := by
  cases v with
  | obj fields =>
    rw [value_obj (by decide)]
    exact lawful.link_object fields
  | arr items =>
    rw [value_arr]
    rfl
  | _ => rw [value_of_flat rfl rfl]

theorem target_document (d : Document) (fuel : Nat) (name : String) :
    (o.document d).target? fuel name =
      (d.target? fuel name).map fun found => (found.1, o.object found.2) := by
  induction fuel generalizing name with
  | zero => rfl
  | succ fuel ih =>
    have part : (o.document d).parts.lookup name = (d.parts.lookup name).map (o.value .single) := by
      rw [document, entries_eq]
      exact Entries.lookup_map _ _ _
    unfold Document.target?
    rw [part]
    cases d.parts.lookup name with
    | none => rfl
    | some v =>
      cases v with
      | obj fields =>
        rw [Option.map_some, value_obj (by decide)]
        dsimp only
        rw [lawful.link_object]
        cases (Json.obj fields).link? with
        | none => rfl
        | some next => exact ih next
      | arr items =>
        rw [Option.map_some, value_arr]
        rfl
      | _ =>
        rw [Option.map_some, value_of_flat rfl rfl]
        rfl

end Lawful
end Omission
end LinkedSchema
