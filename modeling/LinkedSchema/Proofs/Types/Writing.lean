import LinkedSchema.Proofs.Json.Same
import LinkedSchema.Proofs.Types.Form
import LinkedSchema.Types.Export
/-! What the export of one type says: all of the type but what it refers to, and what stands for
that. -/
namespace LinkedSchema

open Json (Same)

/-- What a type may be made of. -/
inductive Shape where
  | types
  | element
  | members
  | choices
  | value
  deriving DecidableEq

def Kind.shape : Kind → Shape
  | .intersection | .union | .tuple => .types
  | .array => .element
  | .interface => .members
  | .enum => .choices
  | _ => .value

def Part.shape {α : Type} : Part α → Shape
  | .type _ => .types
  | .member _ => .members
  | .choice _ _ => .choices
  | .value _ => .value

def Params.HasShape {α : Type} (shape : Shape) : Params α → Prop
  | .one _ => shape = .element
  | .many parts => shape ∈ [.types, .members, .choices] ∧ ∀ p ∈ parts, p.shape = shape
  | .value _ => shape = .value

instance {α : Type} (shape : Shape) : (params : Params α) → Decidable (params.HasShape shape)
  | .one _ => inferInstanceAs (Decidable (shape = .element))
  | .many parts => inferInstanceAs
      (Decidable (shape ∈ [.types, .members, .choices] ∧ ∀ p ∈ parts, p.shape = shape))
  | .value _ => inferInstanceAs (Decidable (shape = .value))

/-- A filled type that is made of what its kind says. -/
def TypeNode.Shaped (n : TypeNode) : Prop := ∃ kind ∈ n.kind, n.params.HasShape kind.shape

instance (n : TypeNode) : Decidable n.Shaped :=
  inferInstanceAs (Decidable (∃ kind ∈ n.kind, n.params.HasShape kind.shape))

/-- Types that agree in all but the types they refer to, which are related one by one. -/
structure TypeNode.Matches (R : TypeId → TypeId → Prop) (n m : TypeNode) : Prop where
  form : n.form.Matches Same R m.form
  keyName : n.keyName = m.keyName
  standaloneName : n.standaloneName = m.standaloneName
  comment : n.comment.Same m.comment

theorem TypeNode.Matches.references {R : TypeId → TypeId → Prop} {n m : TypeNode}
    (h : n.Matches R m) : List.Forall₂ R n.references m.references := by
  rw [← n.references_form, ← m.references_form]
  exact h.form.references

theorem TypeNode.Matches.imp_mem {R S : TypeId → TypeId → Prop} {n m : TypeNode}
    (h : n.Matches R m) (weaken : ∀ a ∈ n.references, ∀ b, R a b → S a b) : n.Matches S m :=
  { h with form := h.form.imp_mem weaken }

theorem TypeNode.Matches.of_references {R S : TypeId → TypeId → Prop} {n m : TypeNode}
    (h : n.Matches S m) (related : List.Forall₂ R n.references m.references) : n.Matches R m :=
  { h with form := h.form.of_references related }

theorem rel_map_iff {α β γ δ : Type} {S : γ → δ → Prop} {f : α → γ} {g : β → δ}
    {x : Option α} {y : Option β} :
    Option.Rel S (x.map f) (y.map g) ↔ Option.Rel (fun a b => S (f a) (g b)) x y := by
  cases x <;> cases y <;> simp

theorem rel_eq_iff {α : Type} {x y : Option α} : Option.Rel Eq x y ↔ x = y := by
  cases x <;> cases y <;> simp

namespace TypeGraph

variable {f g : TypeId → Json} {n m : TypeNode}

theorem ofName_name (kind : Kind) : Kind.ofName? kind.name = some kind := by
  cases kind <;> decide

theorem name_injective : Function.Injective Kind.name := by
  intro a b h
  have found : Kind.ofName? a.name = some b := by rw [h, ofName_name]
  rw [ofName_name, Option.some.injEq] at found
  exact found

/-- A value, unless it is null. -/
def given (v : Json) : Option Json := if v.isNull then none else some v

theorem same_given_iff {v w : Json} : Option.Rel Same (given v) (given w) ↔ v.Same w := by
  cases v <;> cases w <;> simp [given, Json.isNull] <;> first | exact .null | nofun

theorem same_all_iff {xs ys : List TypeId} :
    Same (.arr (xs.map f)) (.arr (ys.map g)) ↔
      List.Forall₂ (fun a b => Same (f a) (g b)) xs ys := by
  rw [Json.same_arr_iff, List.forall₂_map_left_iff, List.forall₂_map_right_iff]

/-- The fields of a type in full, of which those that are absent are left out. -/
def fields (ofType : TypeId → Json) (n : TypeNode) : Entries (Option Json) := [
  ("tag", n.kind.map fun kind => .str kind.name),
  ("standalone_name", n.standaloneName.map .str),
  ("key_name", n.keyName.map .str),
  ("comment", given n.comment),
  ("deprecated", given n.deprecated),
  ("params", given (paramsJson ofType n.params)),
  ("super_types", if n.superTypes.isEmpty then none else some (.arr (n.superTypes.map ofType))),
  ("min_items", given n.minItems),
  ("max_items", given n.maxItems),
  ("spread_param", n.spread.map ofType)]

theorem field_eq {name : String} {v : Json} :
    field name v = ((given v).map fun v => (name, v)).toList := by
  unfold field given
  split <;> rfl

theorem textField_eq {name : String} {text : Option String} :
    textField name text = ((text.map Json.str).map fun v => (name, v)).toList := by
  cases text <;> rfl

theorem fullJson_eq : fullJson f n = .obj (fields f n).present := by
  have superTypes : (if n.superTypes.isEmpty then [] else
      [("super_types", Json.arr (n.superTypes.map f))]) =
      ((if n.superTypes.isEmpty then none else some (Json.arr (n.superTypes.map f))).map
        fun v => ("super_types", v)).toList := by
    split <;> rfl
  have spread : (n.spread.map fun t => ("spread_param", f t)).toList =
      ((n.spread.map f).map fun v => ("spread_param", v)).toList := by
    cases n.spread <;> rfl
  have last : Entries.present [] = [] := rfl
  simp only [fullJson, fields, Entries.present_cons, field_eq, textField_eq, superTypes, spread, last,
    Option.map_map, List.append_assoc, List.append_nil]
  rfl

/-- The fields of a member, all of which are there. -/
def memberFields (ofType : TypeId → Json) (m : Member) : Entries (Option Json) := [
  ("key_name", some (.str m.key)),
  ("ast", some (ofType m.type)),
  ("is_required", some (.bool m.isRequired)),
  ("is_pattern_property", some (.bool m.isPattern)),
  ("is_unreachable_definition", some (.bool m.isUnreachable))]

theorem same_memberJson_iff {a b : Member} :
    Same (partJson f (.member a)) (partJson g (.member b)) ↔
      a.Matches (fun t u => Same (f t) (g u)) b := by
  have names : (memberFields f a).names = (memberFields g b).names := rfl
  have once : (memberFields f a).names.Nodup := by simp [memberFields, Entries.names]
  refine (Entries.same_present_iff names once).trans ?_
  simp only [memberFields, List.forall₂_cons, Option.rel_some_some, Json.same_str_iff,
    Json.same_bool_iff, List.forall₂_nil_left_iff, and_true]
  constructor
  · rintro ⟨key, type, required, pattern, unreachable⟩
    exact ⟨key, required, pattern, unreachable, type⟩
  · rintro ⟨key, required, pattern, unreachable, type⟩
    exact ⟨key, type, required, pattern, unreachable⟩

theorem same_partJson_iff {p q : Part} (alike : p.shape = q.shape) :
    Same (partJson f p) (partJson g q) ↔ p.Matches Same (fun t u => Same (f t) (g u)) q := by
  cases p with
  | type t =>
    cases q with
    | type u => exact ⟨fun h => .type h, fun h => by cases h; assumption⟩
    | _ => cases alike
  | member a =>
    cases q with
    | member b => exact same_memberJson_iff.trans ⟨.member, fun h => by cases h; assumption⟩
    | _ => cases alike
  | choice x t =>
    cases q with
    | choice y u =>
      refine (Json.same_pair_iff (by decide)).trans ⟨fun h => .choice h.1 h.2, fun h => ?_⟩
      cases h with
      | choice names types => exact ⟨names, types⟩
    | _ => cases alike
  | value v =>
    cases q with
    | value w => exact ⟨.value, fun h => by cases h; assumption⟩
    | _ => cases alike

theorem same_partsJson_iff {shape : Shape} {ps qs : List Part} (left : ∀ p ∈ ps, p.shape = shape)
    (right : ∀ q ∈ qs, q.shape = shape) :
    Same (.arr (ps.map (partJson f))) (.arr (qs.map (partJson g))) ↔
      List.Forall₂ (Part.Matches Same fun t u => Same (f t) (g u)) ps qs := by
  rw [Json.same_arr_iff, List.forall₂_map_left_iff, List.forall₂_map_right_iff,
    List.forall₂_iff_get, List.forall₂_iff_get]
  refine and_congr_right fun _ => forall_congr' fun i => forall₂_congr fun hi hj => ?_
  have alike : (ps.get ⟨i, hi⟩).shape = (qs.get ⟨i, hj⟩).shape := by
    rw [left _ (List.get_mem ps ⟨i, hi⟩), right _ (List.get_mem qs ⟨i, hj⟩)]
  exact same_partJson_iff alike

theorem same_paramsJson_iff {shape : Shape} {p q : Params} (left : p.HasShape shape)
    (right : q.HasShape shape) :
    Same (paramsJson f p) (paramsJson g q) ↔
      p.Matches Same (fun t u => Same (f t) (g u)) q := by
  cases p with
  | one t =>
    cases q with
    | one u => exact ⟨fun h => .one h, fun h => by cases h; assumption⟩
    | many qs =>
      rw [show shape = .element from left] at right
      exact absurd right.1 (by decide)
    | value w =>
      rw [show shape = .element from left] at right
      cases right
  | many ps =>
    cases q with
    | many qs =>
      exact (same_partsJson_iff left.2 right.2).trans ⟨.many, fun h => by cases h; assumption⟩
    | one u =>
      rw [show shape = .element from right] at left
      exact absurd left.1 (by decide)
    | value w =>
      rw [show shape = .value from right] at left
      exact absurd left.1 (by decide)
  | value v =>
    cases q with
    | value w => exact ⟨.value, fun h => by cases h; assumption⟩
    | many qs =>
      rw [show shape = .value from left] at right
      exact absurd right.1 (by decide)
    | one u =>
      rw [show shape = .value from left] at right
      cases right

theorem same_superTypes_iff {xs ys : List TypeId} :
    Option.Rel Same (if xs.isEmpty then none else some (.arr (xs.map f)))
        (if ys.isEmpty then none else some (.arr (ys.map g))) ↔
      List.Forall₂ (fun t u => Same (f t) (g u)) xs ys := by
  cases xs with
  | nil => cases ys <;> simp
  | cons t xs =>
    cases ys with
    | nil => simp
    | cons u ys =>
      simp only [List.isEmpty_cons, Bool.false_eq_true, if_false, Option.rel_some_some]
      exact same_all_iff

/-- Types in full are the same value if and only if they agree in all they say, and the same stands
for the types they refer to. -/
theorem same_fullJson_iff (left : n.Shaped) (right : m.Shaped) :
    Same (fullJson f n) (fullJson g m) ↔ n.Matches (fun t u => Same (f t) (g u)) m := by
  have names : (fields f n).names = (fields g m).names := rfl
  have once : (fields f n).names.Nodup := by simp [fields, Entries.names]
  have kinds : Option.Rel Same (n.kind.map fun kind => .str kind.name)
      (m.kind.map fun kind => .str kind.name) ↔ n.kind = m.kind := by
    rw [rel_map_iff, ← rel_eq_iff]
    simp only [Json.same_str_iff, name_injective.eq_iff]
  have texts : ∀ {a b : Option String},
      Option.Rel Same (a.map .str) (b.map .str) ↔ a = b := by
    intro a b
    rw [rel_map_iff, ← rel_eq_iff]
    simp only [Json.same_str_iff]
  have params : n.kind = m.kind → (Same (paramsJson f n.params) (paramsJson g m.params) ↔
      n.params.Matches Same (fun t u => Same (f t) (g u)) m.params) := by
    intro same
    obtain ⟨kind, here, shaped⟩ := left
    obtain ⟨kind', there, shaped'⟩ := right
    rw [Option.mem_def, same, there, Option.some.injEq] at here
    exact same_paramsJson_iff shaped (here ▸ shaped')
  rw [fullJson_eq, fullJson_eq, Entries.same_present_iff names once]
  simp only [fields, List.forall₂_cons, List.forall₂_nil_left_iff, and_true, kinds, texts,
    same_given_iff, same_superTypes_iff, rel_map_iff]
  constructor
  · rintro ⟨kind, name, key, comment, deprecated, value, superTypes, least, most, spread⟩
    exact {
      form := ⟨kind, (params kind).mp value, deprecated, superTypes, least, most, spread⟩
      keyName := key
      standaloneName := name
      comment := comment }
  · rintro ⟨⟨kind, value, deprecated, superTypes, least, most, spread⟩, key, name, comment⟩
    exact ⟨kind, name, key, comment, deprecated, (params kind).mpr value, superTypes, least, most,
      spread⟩

end TypeGraph
end LinkedSchema
