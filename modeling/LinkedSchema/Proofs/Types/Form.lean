import LinkedSchema.Types.Graph
import Mathlib.Data.List.Forall2
/-! The form of a type: all it says, apart from its names and its comment. Forms are over whatever
stands for the types referred to, so a form over trees is one step of an unfolding. -/
namespace LinkedSchema

variable {α β γ : Type}

structure Form (α : Type) where
  kind : Option Kind
  params : Params α := .value .null
  deprecated : Json := .null
  superTypes : List α := []
  minItems : Json := .null
  maxItems : Json := .null
  spread : Option α := none

def TypeNode.form (n : TypeNode) : Form TypeId :=
  { kind := n.kind, params := n.params, deprecated := n.deprecated, superTypes := n.superTypes
    minItems := n.minItems, maxItems := n.maxItems, spread := n.spread }

def Member.map (f : α → β) (m : Member α) : Member β :=
  { key := m.key, type := f m.type, isRequired := m.isRequired, isPattern := m.isPattern
    isUnreachable := m.isUnreachable }

def Part.map (f : α → β) : Part α → Part β
  | .type t => .type (f t)
  | .member m => .member (m.map f)
  | .choice name t => .choice name (f t)
  | .value v => .value v

def Params.map (f : α → β) : Params α → Params β
  | .one t => .one (f t)
  | .many parts => .many (parts.map (Part.map f))
  | .value v => .value v

def Form.map (f : α → β) (x : Form α) : Form β :=
  { kind := x.kind, params := x.params.map f, deprecated := x.deprecated
    superTypes := x.superTypes.map f, minItems := x.minItems, maxItems := x.maxItems
    spread := x.spread.map f }

/-- All that a form refers to, in the order of an export. -/
def Form.references (x : Form α) : List α := x.params.types ++ x.superTypes ++ x.spread.toList

theorem TypeNode.references_form (n : TypeNode) : n.form.references = n.references := rfl

theorem Part.types_cons (p : Part α) (parts : List (Part α)) :
    (p :: parts).filterMap type? = p.type?.toList ++ parts.filterMap type? := by
  cases found : p.type? <;> simp [found]

theorem Params.types_type (xs : List α) : (Params.many (xs.map .type)).types = xs := by
  simp [types, List.filterMap_map, Function.comp_def, Part.type?]

theorem Params.types_member (members : List (Member α)) :
    (Params.many (members.map .member)).types = members.map (·.type) := by
  simp [types, List.filterMap_map, Function.comp_def, Part.type?]

theorem Params.types_choice (choices : List (Json × β)) (f : β → α) :
    (Params.many (choices.map fun e => .choice e.1 (f e.2))).types = choices.map (f ·.2) := by
  simp [types, List.filterMap_map, Function.comp_def, Part.type?]

/-- A type unfolded so far. Where no type can be made there is a refusal. -/
inductive Tree where
  | cut
  | refused
  | node (form : Form Tree)

/-- The unfolding of a type, cut at a depth. -/
def TypeGraph.unfold (g : TypeGraph) : Nat → TypeId → Tree
  | 0, _ => .cut
  | depth + 1, t => .node ((g.node t).form.map (g.unfold depth))

section Matches

variable (same : Json → Json → Prop) (R : α → β → Prop)

/-- Members that agree in all but their types, which are related. -/
structure Member.Matches (m : Member α) (n : Member β) : Prop where
  key : m.key = n.key
  isRequired : m.isRequired = n.isRequired
  isPattern : m.isPattern = n.isPattern
  isUnreachable : m.isUnreachable = n.isUnreachable
  type : R m.type n.type

inductive Part.Matches : Part α → Part β → Prop where
  | type {a : α} {b : β} : R a b → Part.Matches (.type a) (.type b)
  | member {m : Member α} {n : Member β} : m.Matches R n → Part.Matches (.member m) (.member n)
  | choice {x y : Json} {a : α} {b : β} : same x y → R a b →
      Part.Matches (.choice x a) (.choice y b)
  | value {v w : Json} : same v w → Part.Matches (.value v) (.value w)

inductive Params.Matches : Params α → Params β → Prop where
  | one {a : α} {b : β} : R a b → Params.Matches (.one a) (.one b)
  | many {xs : List (Part α)} {ys : List (Part β)} :
      List.Forall₂ (Part.Matches same R) xs ys → Params.Matches (.many xs) (.many ys)
  | value {v w : Json} : same v w → Params.Matches (.value v) (.value w)

/-- Forms that agree in all but the types they refer to, which are related one by one. The first
argument says when two values are the same. -/
structure Form.Matches (x : Form α) (y : Form β) : Prop where
  kind : x.kind = y.kind
  params : x.params.Matches same R y.params
  deprecated : same x.deprecated y.deprecated
  superTypes : List.Forall₂ R x.superTypes y.superTypes
  minItems : same x.minItems y.minItems
  maxItems : same x.maxItems y.maxItems
  spread : Option.Rel R x.spread y.spread

end Matches

section

variable {same : Json → Json → Prop} {R S : α → β → Prop}

theorem forall₂_imp_mem {xs : List α} {ys : List β} (h : List.Forall₂ R xs ys)
    (weaken : ∀ a ∈ xs, ∀ b, R a b → S a b) : List.Forall₂ S xs ys := by
  obtain ⟨length, related⟩ := List.forall₂_iff_zip.mp h
  exact List.forall₂_iff_zip.mpr ⟨length, fun pair =>
    weaken _ (List.of_mem_zip pair).1 _ (related pair)⟩

theorem exists_of_forall₂ {xs : List α} {ys : List β}
    (h : List.Forall₂ R xs ys) : ∀ x ∈ xs, ∃ y, R x y := by
  induction h with
  | nil => nofun
  | cons head _ ih =>
    intro x hx
    rcases List.mem_cons.mp hx with rfl | later
    · exact ⟨_, head⟩
    · exact ih x later

/-- Of two lists that are related one by one, what stands beside an element of the second. -/
theorem exists_beside {R : α → β → Prop} {xs : List α} {ys : List β} (h : List.Forall₂ R xs ys) :
    ∀ y ∈ ys, ∃ x ∈ xs, R x y ∧ ∀ (f : α → γ) (g : β → γ), xs.map f = ys.map g → f x = g y := by
  induction h with
  | nil => nofun
  | @cons x y xs ys head _ ih =>
    intro z hz
    rcases List.mem_cons.mp hz with rfl | later
    · exact ⟨x, List.mem_cons_self, head, fun f g same => (List.cons.inj same).1⟩
    · obtain ⟨w, here, related, beside⟩ := ih z later
      exact ⟨w, List.mem_cons_of_mem _ here, related, fun f g same =>
        beside f g (List.cons.inj same).2⟩

theorem Part.Matches.imp_mem {p : Part α} {q : Part β} (h : p.Matches same R q)
    (weaken : ∀ a ∈ p.type?, ∀ b, R a b → S a b) : p.Matches same S q := by
  cases h with
  | type h => exact .type (weaken _ rfl _ h)
  | member h => exact .member { h with type := weaken _ rfl _ h.type }
  | choice hx h => exact .choice hx (weaken _ rfl _ h)
  | value h => exact .value h

theorem Part.Matches.imp (weaken : ∀ a b, R a b → S a b) {p : Part α} {q : Part β}
    (h : p.Matches same R q) : p.Matches same S q :=
  h.imp_mem fun a _ => weaken a

theorem Params.Matches.imp_mem {p : Params α} {q : Params β} (h : p.Matches same R q)
    (weaken : ∀ a ∈ p.types, ∀ b, R a b → S a b) : p.Matches same S q := by
  cases h with
  | one h => exact .one (weaken _ List.mem_cons_self _ h)
  | many h =>
    refine .many (forall₂_imp_mem h fun part listed _ related => related.imp_mem fun a here => ?_)
    exact weaken a (List.mem_filterMap.mpr ⟨part, listed, here⟩)
  | value h => exact .value h

/-- Forms match under any relation that holds of all they refer to. -/
theorem Form.Matches.imp_mem {x : Form α} {y : Form β} (h : x.Matches same R y)
    (weaken : ∀ a ∈ x.references, ∀ b, R a b → S a b) : x.Matches same S y where
  kind := h.kind
  params := h.params.imp_mem fun a ha => weaken a (by simp [Form.references, ha])
  deprecated := h.deprecated
  superTypes := forall₂_imp_mem h.superTypes fun a ha => weaken a (by simp [Form.references, ha])
  minItems := h.minItems
  maxItems := h.maxItems
  spread := by
    have spread := h.spread
    have weaken : ∀ a ∈ x.spread, ∀ b, R a b → S a b := fun a ha =>
      weaken a (by simp [Form.references, Option.mem_def.mp ha])
    cases left : x.spread <;> cases right : y.spread <;> rw [left, right] at spread
    · exact .none
    · cases spread
    · cases spread
    · exact .some (weaken _ left _ (Option.rel_some_some.mp spread))

theorem Form.Matches.imp (weaken : ∀ a b, R a b → S a b) {x : Form α} {y : Form β}
    (h : x.Matches same R y) : x.Matches same S y :=
  h.imp_mem fun a _ => weaken a

theorem Params.Matches.types {p : Params α} {q : Params β} (h : p.Matches same R q) :
    List.Forall₂ R p.types q.types := by
  cases h with
  | one h => exact .cons h .nil
  | value _ => exact .nil
  | many all =>
    induction all with
    | nil => exact .nil
    | cons head _ ih =>
      cases head with
      | type h => exact .cons h ih
      | member h => exact .cons h.type ih
      | choice _ h => exact .cons h ih
      | value _ => exact ih

theorem Form.Matches.references {x : Form α} {y : Form β} (h : x.Matches same R y) :
    List.Forall₂ R x.references y.references := by
  have spread : List.Forall₂ R x.spread.toList y.spread.toList := by
    rcases x with ⟨_, _, _, _, _, _, _ | a⟩ <;> rcases y with ⟨_, _, _, _, _, _, _ | c⟩ <;>
      cases h.spread
    · exact .nil
    · rename_i related
      exact .cons related .nil
  exact List.rel_append (List.rel_append h.params.types h.superTypes) spread

theorem forall₂_of_append {xs xs' : List α} {ys ys' : List β} (length : xs.length = ys.length)
    (h : List.Forall₂ R (xs ++ xs') (ys ++ ys')) :
    List.Forall₂ R xs ys ∧ List.Forall₂ R xs' ys' := by
  have front := List.forall₂_take_append _ ys ys' h
  have back := List.forall₂_drop_append _ ys ys' h
  rw [← length] at front back
  rw [List.take_left] at front
  rw [List.drop_left] at back
  exact ⟨front, back⟩

theorem Params.Matches.of_types {p : Params α} {q : Params β} (h : p.Matches same S q)
    (types : List.Forall₂ R p.types q.types) : p.Matches same R q := by
  cases h with
  | one _ => exact .one (List.forall₂_cons.mp types).1
  | value h => exact .value h
  | many all =>
    refine .many ?_
    induction all with
    | nil => exact .nil
    | cons head _ ih =>
      cases head with
      | type _ =>
        obtain ⟨here, types⟩ := List.forall₂_cons.mp types
        exact .cons (.type here) (ih types)
      | member h =>
        obtain ⟨here, types⟩ := List.forall₂_cons.mp types
        exact .cons (.member { h with type := here }) (ih types)
      | choice hx _ =>
        obtain ⟨here, types⟩ := List.forall₂_cons.mp types
        exact .cons (.choice hx here) (ih types)
      | value h => exact .cons (.value h) (ih types)

/-- What forms refer to may be related otherwise, one by one. -/
theorem Form.Matches.of_references {x : Form α} {y : Form β} (h : x.Matches same S y)
    (related : List.Forall₂ R x.references y.references) : x.Matches same R y := by
  have superLength : x.superTypes.length = y.superTypes.length := h.superTypes.length_eq
  have typesLength := h.params.types.length_eq
  obtain ⟨others, spread⟩ := forall₂_of_append (by simp [typesLength, superLength]) related
  obtain ⟨types, superTypes⟩ := forall₂_of_append typesLength others
  refine { h with params := h.params.of_types types, superTypes, spread := ?_ }
  have sameSpread := h.spread
  cases left : x.spread <;> cases right : y.spread <;> rw [left, right] at sameSpread spread
  · exact .none
  · cases sameSpread
  · cases sameSpread
  · exact .some (List.forall₂_cons.mp spread).1

theorem map_eq_of_forall₂ {δ ε : Type} {R : δ → ε → Prop} {f : δ → γ} {g : ε → γ}
    (agree : ∀ a b, R a b → f a = g b) {xs : List δ} {ys : List ε} (h : List.Forall₂ R xs ys) :
    xs.map f = ys.map g := by
  induction h with
  | nil => rfl
  | cons head _ ih => rw [List.map_cons, List.map_cons, agree _ _ head, ih]

theorem Part.Matches.map_eq {f : α → γ} {g : β → γ} (agree : ∀ a b, R a b → f a = g b)
    {p : Part α} {q : Part β} (h : p.Matches Eq R q) : p.map f = q.map g := by
  cases h with
  | type h => exact congrArg Part.type (agree _ _ h)
  | member h =>
    simp only [Part.map, Member.map, h.key, h.isRequired, h.isPattern, h.isUnreachable,
      agree _ _ h.type]
  | choice hx h => simp only [Part.map, hx, agree _ _ h]
  | value h => rw [h]; rfl

theorem Params.Matches.map_eq {f : α → γ} {g : β → γ} (agree : ∀ a b, R a b → f a = g b)
    {p : Params α} {q : Params β} (h : p.Matches Eq R q) : p.map f = q.map g := by
  cases h with
  | one h => exact congrArg Params.one (agree _ _ h)
  | many h => exact congrArg Params.many (map_eq_of_forall₂ (fun _ _ h => h.map_eq agree) h)
  | value h => rw [h]; rfl

theorem map_eq_of_rel {f : α → γ} {g : β → γ} (agree : ∀ a b, R a b → f a = g b)
    {x : Option α} {y : Option β} (h : Option.Rel R x y) : x.map f = y.map g := by
  cases h with
  | some h => exact congrArg some (agree _ _ h)
  | none => rfl

/-- Forms that match have the same image under maps that agree on what they refer to. -/
theorem Form.Matches.map_eq {f : α → γ} {g : β → γ} (agree : ∀ a b, R a b → f a = g b)
    {x : Form α} {y : Form β} (h : x.Matches Eq R y) : x.map f = y.map g := by
  simp only [Form.map, h.kind, h.params.map_eq agree, h.deprecated,
    map_eq_of_forall₂ agree h.superTypes, h.minItems, h.maxItems, map_eq_of_rel agree h.spread]

end

theorem Form.references_map (f : α → β) (x : Form α) :
    (x.map f).references = x.references.map f := by
  have part (p : Part α) : (p.map f).type? = p.type?.map f := by
    cases p <;> rfl
  have params (p : Params α) : (p.map f).types = p.types.map f := by
    cases p with
    | one a => rfl
    | value v => rfl
    | many parts =>
      show (parts.map (Part.map f)).filterMap Part.type? = (parts.filterMap Part.type?).map f
      rw [List.filterMap_map, List.map_filterMap]
      exact List.filterMap_congr fun p _ => part p
  simp only [Form.references, Form.map, params, List.map_append]
  cases x.spread <;> rfl

section

variable {same : Json → Json → Prop} {R : α → γ → Prop} {f : β → γ}

theorem Part.Matches.map_right {p : Part α} {q : Part β}
    (h : p.Matches same (fun a b => R a (f b)) q) : p.Matches same R (q.map f) := by
  cases h with
  | type h => exact .type h
  | member h => exact .member ⟨h.key, h.isRequired, h.isPattern, h.isUnreachable, h.type⟩
  | choice names h => exact .choice names h
  | value h => exact .value h

theorem Params.Matches.map_right {p : Params α} {q : Params β}
    (h : p.Matches same (fun a b => R a (f b)) q) : p.Matches same R (q.map f) := by
  cases h with
  | one h => exact .one h
  | many h => exact .many (List.forall₂_map_right_iff.mpr (h.imp fun _ _ part => part.map_right))
  | value h => exact .value h

/-- What a form refers to may be mapped on the way. -/
theorem Form.Matches.map_right {x : Form α} {y : Form β}
    (h : x.Matches same (fun a b => R a (f b)) y) : x.Matches same R (y.map f) where
  kind := h.kind
  params := h.params.map_right
  deprecated := h.deprecated
  superTypes := List.forall₂_map_right_iff.mpr h.superTypes
  minItems := h.minItems
  maxItems := h.maxItems
  spread := by
    have spread := h.spread
    simp only [Form.map]
    cases left : x.spread <;> cases right : y.spread <;> rw [left, right] at spread
    · exact .none
    · cases spread
    · cases spread
    · have related := Option.rel_some_some.mp spread
      exact .some related

end

end LinkedSchema
