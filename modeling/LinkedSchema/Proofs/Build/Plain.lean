import LinkedSchema.Build.Shapes
import LinkedSchema.Proofs.Types.Form
/-! Translation of schemas by plain recursion: nothing is remembered, no type is unfilled at any
time, and copies of nodes are values that are made wherever they are needed. -/
namespace LinkedSchema

/-- What the recursion goes through: a schema, or a copy of a node in all of its categories or in
one of them. -/
inductive Subject where
  | schema (s : Subschema)
  | whole (n : Node)
  | part (n : Node) (category : Category)

/-- Forms that refer to nothing. -/
def Form.ofBool {α : Type} (b : Bool) : Form α := { kind := some (if b then .any else .never) }

def Form.literal {α : Type} (v : Json) : Form α := { kind := some .literal, params := .value v }

namespace Node

/-- The copy without what a type is named and described by. -/
def unnamed (n : Node) : Node := { n with id := .null, title := .null, description := .null }

/-- The copy fixed to a type, with a default of that type only. -/
def ofType (n : Node) (type : Json) : Node :=
  { n.unnamed with type, default := n.default.filter (Build.defaultFits type) }

def bareForm (n : Node) (kind : Kind) : Form Subject :=
  { kind := some kind, deprecated := n.deprecated }

def collectionForm (n : Node) (kind : Kind) (members : List Subject) : Form Subject :=
  { n.bareForm kind with params := .many (members.map .type) }

/-- The form of an enumeration whose list of values has as many names. -/
def namedEnumForm (n : Node) : Option (Form Subject) :=
  match n.enum with
  | .arr values =>
    (if n.tsEnumNames.truthy then n.tsEnumNames.elements? else some []).bind fun names =>
      if names.length = values.length then
        some { n.bareForm .enum with
          params := .many ((names.zip values).map fun e => .choice e.1 (.schema (.bare e.2))) }
      else none
  | _ => none

/-- The values of an enumeration without names, if they can be gone through. -/
def enumValues? (n : Node) : Option (List Json) :=
  match n.enum with
  | .obj entries => some (entries.map (·.2))
  | v => if v.truthy then v.elements? else some []

def spreadSubject : Option Subschema → Option Subject
  | some (.bool true) => some (.schema (.bool true))
  | some (.node i) => some (.schema (.node i))
  | _ => none

def typedArrayForm (n : Node) : Form Subject :=
  match n.items with
  | some (.positions items) =>
    { n.collectionForm .tuple (items.map .schema) with
      minItems := n.minItems, maxItems := n.maxItems, spread := spreadSubject n.additionalItems }
  | some (.each item) => { n.bareForm .array with params := .one (.schema item) }
  | none => { n.bareForm .array with params := .one (.schema (.bare .null)) }

/-- How many places a tuple of anything has, if the bounds make a tuple at all. Bounds that are no
numbers make nothing. -/
def places? (upper : Int) (lower : Json) : Option (Option Nat) :=
  lower.number?.bind fun bound =>
    if (Number.int 0).less bound || 0 ≤ upper then
      if (Number.int upper).less bound then lower.int?.map fun count => some count.toNat
      else some (some upper.toNat)
    else some none

def untypedArrayForm (n : Node) : Option (Form Subject) :=
  let lower := n.minItems.orZero
  let upper := n.maxItems.int?.getD (-1)
  let anything := Subject.schema (.bool true)
  (places? upper lower).map fun
    | some places =>
      { n.collectionForm .tuple (List.replicate places anything) with
        minItems := lower, maxItems := n.maxItems
        spread := if 0 ≤ upper then none else some anything }
    | none => { n.bareForm .array with params := .one anything }

def propertyForms (n : Node) : List (Member Subject) :=
  (n.properties.getD []).map fun e =>
    { key := e.1, type := .schema e.2, isRequired := Build.isRequired n e.1 }

def patternForms (n : Node) : List (Member Subject) :=
  (n.patternProperties.getD []).map fun e =>
    if Build.hasSinglePattern n then { key := indexKey, type := .schema e.2, isRequired := true }
    else { key := e.1, type := .schema e.2, isRequired := Build.isRequired n e.1, isPattern := true }

def definitionForms (n : Node) : List (Member Subject) :=
  (n.definitions.getD []).map fun e =>
    { key := e.1, type := .schema e.2, isRequired := Build.isRequired n e.1, isUnreachable := true }

def additionalForms (n : Node) : List (Member Subject) :=
  match n.additionalProperties with
  | none | some (.bool true) =>
    if Build.hasSinglePattern n then []
    else [{ key := indexKey, type := .schema (.bool true), isRequired := true }]
  | some (.node i) => [{ key := indexKey, type := .schema (.node i), isRequired := true }]
  | some _ => []

def superForms (n : Node) : List Subject :=
  match n.bases with
  | some (.one (.bool false)) => []
  | some bases => bases.toList.map .schema
  | none => []

def interfaceForm (n : Node) : Form Subject :=
  { n.bareForm .interface with
    params := .many
      ((n.propertyForms ++ n.patternForms ++ n.definitionForms ++ n.additionalForms).map .member)
    superTypes := n.superForms }

/-- The types that a node is declared with, if it is declared with a list of them. -/
def typeList (n : Node) : List Json :=
  match n.type with
  | .arr types => types
  | _ => []

/-- The form of a node in one of its categories. -/
def formIn (n : Node) : Category → Option (Form Subject)
  | .allOf => some (n.collectionForm .intersection ((n.allOf.getD []).map .schema))
  | .anyOf => some (n.collectionForm .union ((n.anyOf.getD []).map .schema))
  | .oneOf => some (n.collectionForm .union ((n.oneOf.getD []).map .schema))
  | .any => some (n.bareForm .any)
  | .customType => some { n.bareForm .customType with params := .value n.tsType }
  | .namedEnum => n.namedEnumForm
  | .unnamedEnum => n.enumValues?.map fun values =>
    n.collectionForm .union (values.map fun v => .schema (.bare v))
  | .namedSchema | .unnamedSchema => some n.interfaceForm
  | .reference => none
  | .typedArray => some n.typedArrayForm
  | .untypedArray => n.untypedArrayForm
  | .union => some (n.collectionForm .union (n.typeList.map fun type => .whole (n.ofType type)))
  | .boolean => some (n.bareForm .boolean)
  | .null => some (n.bareForm .null)
  | .number => some (n.bareForm .number)
  | .object => some (n.bareForm .object)
  | .string => some (n.bareForm .string)

/-- The form of a node in all of its categories. Several ones make an intersection of the forms of
the unnamed copy in each of them. -/
def form (n : Node) : Option (Form Subject) :=
  match n.categories with
  | [category] => n.formIn category
  | categories => some (n.collectionForm .intersection (categories.map (.part n.unnamed)))

end Node

namespace Graph

def form (g : Graph) : Subject → Option (Form Subject)
  | .schema (.bool b) => some (Form.ofBool b)
  | .schema (.bare v) => some (Form.literal v)
  | .schema (.node i) => (g.node i).form
  | .whole n => n.form
  | .part n category => n.formIn category

/-- The translation by plain recursion, cut at a depth. -/
def plainTree (g : Graph) : Nat → Subject → Tree
  | 0, _ => .cut
  | depth + 1, x =>
    match g.form x with
    | some form => .node (form.map (g.plainTree depth))
    | none => .refused

/-- A relation under which every type has a form of the subject it is related to makes types unfold
to the translations of their subjects, cycles or not. -/
theorem unfold_eq_plainTree {g : Graph} {types : TypeGraph} {R : TypeId → Subject → Prop}
    (step : ∀ t x, R t x → ∃ form, g.form x = some form ∧ (types.node t).form.Matches Eq R form)
    {t : TypeId} {x : Subject} (related : R t x) (depth : Nat) :
    types.unfold depth t = g.plainTree depth x := by
  induction depth generalizing t x with
  | zero => rfl
  | succ depth ih =>
    obtain ⟨form, made, agree⟩ := step t x related
    simp only [TypeGraph.unfold, plainTree, made]
    exact congrArg Tree.node (agree.map_eq fun _ _ h => ih h)

end Graph
end LinkedSchema
