import LinkedSchema.Proofs.Build.Plain
/-! Plans. What the type of a node is made of can be told before any of it is built: a plan is a
form over the needs of the type, and the build meets the needs in the order of the form. -/
namespace LinkedSchema

variable {α β : Type} {m : Type → Type} [Monad m]

def Member.traverse (f : α → m β) (x : Member α) : m (Member β) := do
  let type ← f x.type
  return { key := x.key, type, isRequired := x.isRequired, isPattern := x.isPattern
           isUnreachable := x.isUnreachable }

def Part.traverse (f : α → m β) : Part α → m (Part β)
  | .type a => return .type (← f a)
  | .member x => return .member (← x.traverse f)
  | .choice name a => return .choice name (← f a)
  | .value v => return .value v

def Params.traverse (f : α → m β) : Params α → m (Params β)
  | .one a => return .one (← f a)
  | .many parts => return .many (← parts.mapM (Part.traverse f))
  | .value v => return .value v

/-- Makes a form of what is made of each of its references, one after the other. -/
def Form.traverse (f : α → m β) (x : Form α) : m (Form β) := do
  let params ← x.params.traverse f
  let superTypes ← x.superTypes.mapM f
  let spread ← x.spread.mapM f
  return { kind := x.kind, params, deprecated := x.deprecated, superTypes, minItems := x.minItems
           maxItems := x.maxItems, spread }

/-- Another type that a type is made of. -/
inductive Need where
  /-- An anonymous type that admits anything. -/
  | any (keyName : Option String := none)
  | value (v : Json)
  /-- The type of a schema found under a name, with a note. -/
  | schema (s : Subschema) (keyName note : Option String := none)
  /-- The type of the copy of the node itself for one of its types. -/
  | copy (type : Json)

namespace Need

/-- What a need of the type of a node is translated to. -/
def subject (n : Node) : Need → Subject
  | .any _ => .schema (.bool true)
  | .value v => .schema (.bare v)
  | .schema s _ _ => .schema s
  | .copy type => .whole (n.ofType type)

def build (sub : Subbuild) (i : NodeId) : Need → Build TypeId
  | .any keyName => Build.addType { kind := some .any, keyName }
  | .value v => Build.addType (Build.literal none v)
  | .schema s keyName none => sub s keyName
  | .schema s keyName (some note) => do
    let t ← sub s keyName
    Build.addNote t note
    return t
  | .copy type => do sub (.node (← Build.narrow i type)) none

end Need

namespace Node

variable (n : Node)

def outline (kind : Kind) : Form Need := { kind := some kind, deprecated := n.deprecated }

def collectionPlan (kind : Kind) (needs : List Need) : Form Need :=
  { n.outline kind with params := .many (needs.map .type) }

def schemasPlan (kind : Kind) (members : List Subschema) : Form Need :=
  n.collectionPlan kind (members.map fun s => .schema s)

/-- A list of an enumeration, if there is one to go through. -/
def listed : Option (List Json) → Except Fault (List Json)
  | some items => .ok items
  | none => .error (.misused .enumeration)

/-- The names of an enumeration, if they can be gone through. -/
def enumNames? : Option (List Json) :=
  if n.tsEnumNames.truthy then n.tsEnumNames.elements? else some []

def namedEnumPlan (i : NodeId) (fileName : Option String) : Except Fault (Form Need) :=
  match n.enum with
  | .arr values =>
    (listed n.enumNames?).bind fun names =>
      if names.length = values.length then
        .ok { n.outline .enum with
          params := .many ((names.zip values).map fun e => .choice e.1 (.value e.2)) }
      else .error (.malformedEnum (.lengths names.length values.length) i fileName)
  | _ => .error (.malformedEnum .notList i fileName)

def spreadNeed : Option Subschema → Option Need
  | some (.bool true) => some .any
  | some (.node i) => some (.schema (.node i))
  | _ => none

def typedArrayPlan : Form Need :=
  match n.items with
  | some (.positions items) =>
    { n.schemasPlan .tuple items with
      minItems := n.minItems, maxItems := n.maxItems, spread := spreadNeed n.additionalItems }
  | some (.each item) => { n.outline .array with params := .one (.schema item) }
  | none => { n.outline .array with params := .one (.schema (.bare .null)) }

def untypedArrayPlan : Except Fault (Form Need) :=
  let lower := n.minItems.orZero
  let upper := n.maxItems.int?.getD (-1)
  match places? upper lower with
  | some (some places) =>
    .ok { n.collectionPlan .tuple (List.replicate places .any) with
      minItems := lower, maxItems := n.maxItems, spread := if 0 ≤ upper then none else some .any }
  | some none => .ok { n.outline .array with params := .one .any }
  | none => .error (.misused .bound)

def propertyNeeds : List (Member Need) :=
  (n.properties.getD []).map fun e =>
    { key := e.1, type := .schema e.2 (some e.1), isRequired := Build.isRequired n e.1 }

def patternNeeds (name : Option String) : List (Member Need) :=
  (n.patternProperties.getD []).map fun e =>
    let type := .schema e.2 (some e.1) (some (Build.patternNote name e.1))
    if Build.hasSinglePattern n then { key := indexKey, type, isRequired := true }
    else { key := e.1, type, isRequired := Build.isRequired n e.1, isPattern := true }

def definitionNeeds (name : Option String) : List (Member Need) :=
  (n.definitions.getD []).map fun e =>
    { key := e.1, type := .schema e.2 (some e.1) (some (Build.definitionNote name e.1))
      isRequired := Build.isRequired n e.1, isUnreachable := true }

def additionalNeeds : List (Member Need) :=
  match n.additionalProperties with
  | none | some (.bool true) =>
    if Build.hasSinglePattern n then []
    else [{ key := indexKey, type := .any (some indexKey), isRequired := true }]
  | some (.node i) =>
    [{ key := indexKey, type := .schema (.node i) (some indexKey), isRequired := true }]
  | some _ => []

def memberNeeds (name : Option String) : List (Member Need) :=
  n.propertyNeeds ++ n.patternNeeds name ++ n.definitionNeeds name ++ n.additionalNeeds

def superNeeds : List Need :=
  match n.bases with
  | some (.one (.bool false)) => []
  | some bases => bases.toList.map fun s => .schema s
  | none => []

def interfacePlan (name : Option String) : Form Need :=
  { n.outline .interface with
    params := .many ((n.memberNeeds name).map .member), superTypes := n.superNeeds }

/-- The plan for the type of a node in a category, unless the node is at fault. It is asked for with
the name of the type: notes depend on it, and some faults arise only once the name is taken. -/
def plan (i : NodeId) (fileName : Option String) :
    Category → Except Fault (Option String → Except Fault (Form Need))
  | .allOf => .ok fun _ => .ok (n.schemasPlan .intersection (n.allOf.getD []))
  | .anyOf => .ok fun _ => .ok (n.schemasPlan .union (n.anyOf.getD []))
  | .oneOf => .ok fun _ => .ok (n.schemasPlan .union (n.oneOf.getD []))
  | .any => .ok fun _ => .ok (n.outline .any)
  | .customType => .ok fun _ => .ok { n.outline .customType with params := .value n.tsType }
  | .namedEnum => (n.namedEnumPlan i fileName).map fun form _ => .ok form
  | .unnamedEnum => (listed n.enumValues?).map fun values _ =>
    .ok (n.collectionPlan .union (values.map .value))
  | .namedSchema | .unnamedSchema => .ok fun name => .ok (n.interfacePlan name)
  | .reference =>
    .error (.unresolvedReference (if n.ref.truthy then n.ref else .str "") i fileName)
  | .typedArray => .ok fun _ => .ok n.typedArrayPlan
  | .untypedArray => .ok fun _ => n.untypedArrayPlan
  | .union => .ok fun _ => .ok (n.collectionPlan .union (n.typeList.map .copy))
  | .boolean => .ok fun _ => .ok (n.outline .boolean)
  | .null => .ok fun _ => .ok (n.outline .null)
  | .number => .ok fun _ => .ok (n.outline .number)
  | .object => .ok fun _ => .ok (n.outline .object)
  | .string => .ok fun _ => .ok (n.outline .string)

/-- The type of that form with the description of a node, and with names. -/
def dress (keyName name : Option String) (x : Form TypeId) : TypeNode :=
  { kind := x.kind, params := x.params, keyName, standaloneName := name, comment := n.description
    deprecated := x.deprecated, superTypes := x.superTypes, minItems := x.minItems
    maxItems := x.maxItems, spread := x.spread }

end Node

namespace Node

variable {n : Node} {i : NodeId} {category : Category} {fileName name : Option String}

theorem references_tuplePlan (kind : Kind) (needs : List Need) (lower upper : Json)
    (spread : Option Need) :
    Form.references { n.collectionPlan kind needs with
      minItems := lower, maxItems := upper, spread } = needs ++ spread.toList := by
  simp [collectionPlan, outline, Form.references, Params.types_type]

theorem references_collectionPlan (kind : Kind) (needs : List Need) :
    (n.collectionPlan kind needs).references = needs :=
  (references_tuplePlan kind needs .null .null none).trans (List.append_nil _)

theorem references_interfacePlan : (n.interfacePlan name).references =
    (n.memberNeeds name).map (·.type) ++ n.superNeeds := by
  simp [interfacePlan, outline, Form.references, Params.types_member]

theorem map_propertyNeeds :
    n.propertyNeeds.map (Member.map (Need.subject n)) = n.propertyForms := by
  simp [propertyNeeds, propertyForms, Member.map, Need.subject]

theorem map_patternNeeds (name : Option String) :
    (n.patternNeeds name).map (Member.map (Need.subject n)) = n.patternForms := by
  unfold patternNeeds patternForms
  rw [List.map_map]
  refine List.map_congr_left fun e _ => ?_
  by_cases single : Build.hasSinglePattern n = true
  · simp [single, Member.map, Need.subject]
  · simp [single, Member.map, Need.subject]

theorem map_definitionNeeds (name : Option String) :
    (n.definitionNeeds name).map (Member.map (Need.subject n)) = n.definitionForms := by
  simp [definitionNeeds, definitionForms, Member.map, Need.subject]

theorem map_additionalNeeds :
    n.additionalNeeds.map (Member.map (Need.subject n)) = n.additionalForms := by
  unfold additionalNeeds additionalForms
  cases n.additionalProperties with
  | none => cases Build.hasSinglePattern n <;> rfl
  | some s =>
    cases s with
    | bool allowed => cases allowed <;> cases Build.hasSinglePattern n <;> rfl
    | bare v => rfl
    | node j => rfl

theorem map_superNeeds : n.superNeeds.map (Need.subject n) = n.superForms := by
  have each (bases : Bases) :
      (bases.toList.map fun s => Need.schema s).map (Need.subject n) =
        bases.toList.map .schema := List.map_map
  unfold superNeeds superForms
  cases n.bases with
  | none => rfl
  | some bases =>
    cases bases with
    | null => exact each .null
    | many bases => exact each (.many bases)
    | one base =>
      cases base with
      | node j => rfl
      | bare v => rfl
      | bool allowed => cases allowed <;> rfl

theorem map_interfacePlan :
    (n.interfacePlan name).map (Need.subject n) = n.interfaceForm := by
  unfold interfacePlan interfaceForm memberNeeds
  rw [← map_propertyNeeds, ← map_patternNeeds name,
    ← map_definitionNeeds name, ← map_additionalNeeds, ← map_superNeeds]
  simp [Form.map, Params.map, Part.map, outline, bareForm, Function.comp_def]

theorem map_collectionPlan (kind : Kind) (needs : List Need) :
    (n.collectionPlan kind needs).map (Need.subject n) =
      n.collectionForm kind (needs.map (Need.subject n)) := by
  simp [collectionPlan, collectionForm, outline, bareForm, Form.map, Params.map, Part.map]

theorem map_schemasPlan (kind : Kind) (members : List Subschema) :
    (n.schemasPlan kind members).map (Need.subject n) =
      n.collectionForm kind (members.map .schema) := by
  rw [schemasPlan, map_collectionPlan, List.map_map]
  rfl

theorem map_namedEnumPlan (i : NodeId) (fileName : Option String) :
    (n.namedEnumPlan i fileName).toOption.map (Form.map (Need.subject n)) = n.namedEnumForm := by
  unfold namedEnumPlan namedEnumForm enumNames?
  cases n.enum with
  | arr values =>
    cases (if n.tsEnumNames.truthy then n.tsEnumNames.elements? else some []) with
    | none => rfl
    | some names =>
      by_cases lengths : names.length = values.length
      · simp [listed, Except.bind, lengths, Except.toOption, Form.map, Params.map, Part.map,
          outline, bareForm, Need.subject, Function.comp_def]
      · simp [listed, Except.bind, lengths, Except.toOption]
  | _ => rfl

theorem map_spreadNeed (additional : Option Subschema) :
    (spreadNeed additional).map (Need.subject n) = spreadSubject additional := by
  cases additional with
  | none => rfl
  | some s =>
    cases s with
    | bool allowed => cases allowed <;> rfl
    | _ => rfl

theorem map_tuplePlan (needs : List Need) (spread : Option Need) (lower upper : Json) :
    Form.map (Need.subject n)
        { n.collectionPlan .tuple needs with minItems := lower, maxItems := upper, spread } =
      { n.collectionForm .tuple (needs.map (Need.subject n)) with
        minItems := lower, maxItems := upper, spread := spread.map (Need.subject n) } := by
  rw [← map_collectionPlan]
  rfl

theorem map_typedArrayPlan : n.typedArrayPlan.map (Need.subject n) = n.typedArrayForm := by
  unfold typedArrayPlan typedArrayForm
  cases n.items with
  | none => rfl
  | some items =>
    cases items with
    | each item => rfl
    | positions items =>
      refine (map_tuplePlan _ _ _ _).trans ?_
      rw [map_spreadNeed, List.map_map]
      rfl

theorem map_untypedArrayPlan :
    n.untypedArrayPlan.toOption.map (Form.map (Need.subject n)) = n.untypedArrayForm := by
  unfold untypedArrayPlan untypedArrayForm
  extract_lets lower upper anything
  cases places? upper lower with
  | none => rfl
  | some places =>
    cases places with
    | none => rfl
    | some places =>
      refine congrArg some ((map_tuplePlan _ _ _ _).trans ?_)
      rw [List.map_replicate]
      by_cases bounded : 0 ≤ upper
      · simp only [if_pos bounded]
        rfl
      · simp only [if_neg bounded]
        rfl

variable (i fileName name) in
/-- A node has a plan in a category where it has a form, and the one is the other over what the
needs are translated to. -/
theorem map_plan :
    ((n.plan i fileName category).bind (· name)).toOption.map (Form.map (Need.subject n)) =
      n.formIn category := by
  cases category with
  | allOf => exact congrArg some (map_schemasPlan _ _)
  | anyOf => exact congrArg some (map_schemasPlan _ _)
  | oneOf => exact congrArg some (map_schemasPlan _ _)
  | namedEnum =>
    rw [formIn, ← map_namedEnumPlan i fileName, plan]
    cases n.namedEnumPlan i fileName <;> rfl
  | unnamedEnum =>
    unfold plan formIn
    cases n.enumValues? with
    | none => rfl
    | some values =>
      refine congrArg some ((map_collectionPlan _ _).trans ?_)
      rw [List.map_map]
      rfl
  | namedSchema => exact congrArg some map_interfacePlan
  | unnamedSchema => exact congrArg some map_interfacePlan
  | typedArray => exact congrArg some map_typedArrayPlan
  | untypedArray => exact map_untypedArrayPlan
  | union =>
    refine congrArg some ((map_collectionPlan _ _).trans ?_)
    rw [List.map_map]
    rfl
  | _ => rfl

end Node

namespace Node

/-- What the name of a type is made of before any key is. -/
def nameSource? (n : Node) : Option Json :=
  if n.title.truthy then some n.title else if n.id.truthy then some n.id else none

/-- A name can be made for the node, if one is called for. -/
def Nameable (n : Node) : Prop := ∀ v ∈ n.nameSource?, v.isText = true

end Node

namespace Category

/-- The key that counts for the name of a type in a category, of the one a node is found under and
the one it is defined under. -/
def nameKey (keyName key : Option String) : Category → Option String
  | .namedEnum => if (key.getD "").isEmpty then keyName else key
  | .namedSchema => none
  | _ => key

end Category

namespace Build

/-- The type of a node in a category, built after its plan. -/
def planned (sub : Subbuild) (i : NodeId) (category : Category) (keyName : Option String) :
    Build TypeNode := do
  let key ← definitionKey i
  let n ← schema i
  let b ← get
  let plan ← MonadExcept.ofExcept (n.plan i b.fileName category)
  let name ← standaloneName n (category.nameKey keyName key)
  let form ← MonadExcept.ofExcept (plan name)
  return n.dress keyName name (← form.traverse (Need.build sub i))

end Build
end LinkedSchema
