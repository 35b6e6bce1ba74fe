import LinkedSchema.Proofs.Build.Plan
import Mathlib.Control.Basic
/-! Builds follow the plans: the type of a node in a category is built after its plan there. -/
namespace LinkedSchema

variable {α β : Type} {n : Node} {category : Category} {keyName key name : Option String}

section Traverse

variable {m : Type → Type} [Monad m] [LawfulMonad m] (f : α → m β)

theorem mapM_traverse_type (xs : List α) :
    (xs.map .type).mapM (Part.traverse f) = xs.mapM fun x => return Part.type (← f x) :=
  List.mapM_map

theorem mapM_traverse_member (xs : List (Member α)) :
    (xs.map .member).mapM (Part.traverse f) = List.map .member <$> xs.mapM (Member.traverse f) := by
  induction xs with
  | nil => simp
  | cons x xs ih =>
    simp only [List.map_cons, List.mapM_cons, Part.traverse, ih, bind_assoc, pure_bind, map_bind,
      map_pure, bind_map_left]

end Traverse

namespace Build

/-- What is done once the name of a type is known and its plan is made. -/
def carryOut (sub : Subbuild) (n : Node) (i : NodeId) (keyName name : Option String)
    (x : Form Need) : Build TypeNode := do
  return n.dress keyName name (← x.traverse (Need.build sub i))

section

variable (sub : Subbuild) (i : NodeId)

theorem carryOut_parts (x : Form Need) (parts : List (Part Need)) :
    carryOut sub n i keyName name { x with params := .many parts } = (do
      let parts ← parts.mapM (Part.traverse (Need.build sub i))
      let superTypes ← x.superTypes.mapM (Need.build sub i)
      let spread ← x.spread.mapM (Need.build sub i)
      return n.dress keyName name
        { kind := x.kind, params := .many parts, deprecated := x.deprecated, superTypes,
          minItems := x.minItems, maxItems := x.maxItems, spread }) := by
  simp only [carryOut, Form.traverse, Params.traverse, bind_assoc, pure_bind]

theorem carryOut_one (kind : Kind) (need : Need) :
    carryOut sub n i keyName name { n.outline kind with params := .one need } = (do
      let t ← need.build sub i
      return { n.describe kind keyName name with params := .one t }) := by
  simp [carryOut, Form.traverse, Params.traverse, Node.outline, Node.dress, Node.describe]

theorem carryOut_value (kind : Kind) (v : Json) :
    carryOut sub n i keyName name { n.outline kind with params := .value v } =
      return { n.describe kind keyName name with params := .value v } := by
  simp [carryOut, Form.traverse, Params.traverse, Node.outline, Node.dress, Node.describe]

theorem carryOut_tuple (parts : List (Part Need)) (spread : Option Need) (lower upper : Json) :
    carryOut sub n i keyName name
        { n.outline .tuple with
          params := .many parts, minItems := lower, maxItems := upper, spread } = (do
      let parts ← parts.mapM (Part.traverse (Need.build sub i))
      let spread ← spread.mapM (Need.build sub i)
      return { n.describe .tuple keyName name with
        params := .many parts, minItems := lower, maxItems := upper, spread }) := by
  simp [carryOut, Form.traverse, Params.traverse, Node.outline, Node.dress, Node.describe]

theorem carryOut_collection (kind : Kind) (parts : List (Part Need)) :
    carryOut sub n i keyName name { n.outline kind with params := .many parts } = (do
      let parts ← parts.mapM (Part.traverse (Need.build sub i))
      return { n.describe kind keyName name with params := .many parts }) := by
  rw [carryOut_parts]
  simp [Node.outline, Node.dress, Node.describe]

theorem typesOf_eq (members : List Subschema) :
    typesOf sub members =
      ((members.map fun s => Need.schema s).map .type).mapM (Part.traverse (Need.build sub i)) := by
  rw [mapM_traverse_type, List.mapM_map]
  rfl

theorem literals_eq (values : List Json) :
    (values.mapM fun v => return Part.type (← addType (literal none v))) =
      ((values.map Need.value).map .type).mapM (Part.traverse (Need.build sub i)) := by
  rw [mapM_traverse_type, List.mapM_map]
  rfl

theorem collection_eq (kind : Kind) (members : List Subschema) :
    collection sub n kind members keyName key = (do
      let name ← standaloneName n key
      carryOut sub n i keyName name (n.schemasPlan kind members)) := by
  unfold collection Node.schemasPlan Node.collectionPlan
  simp only [carryOut_collection, typesOf_eq sub i]

theorem scalar_eq (kind : Kind) :
    scalar n kind keyName key = (do
      let name ← standaloneName n key
      carryOut sub n i keyName name (n.outline kind)) :=
  bind_congr fun _ => (carryOut_value sub i kind .null).symm

theorem customType_eq :
    (do return { ← scalar n .customType keyName key with params := .value n.tsType }) = (do
      let name ← standaloneName n key
      carryOut sub n i keyName name
        { n.outline .customType with params := .value n.tsType }) := by
  unfold scalar
  simp only [bind_assoc, pure_bind, carryOut_value]

theorem enumNames_eq : enumNames n = MonadExcept.ofExcept (Node.listed n.enumNames?) := by
  unfold enumNames Node.enumNames?
  cases n.tsEnumNames.truthy with
  | false => rfl
  | true => cases n.tsEnumNames.elements? <;> rfl

theorem choices_eq (choices : List (Json × Json)) :
    (choices.mapM fun e => return Part.choice e.1 (← addType (literal none e.2))) =
      (choices.map fun e => Part.choice e.1 (Need.value e.2)).mapM
        (Part.traverse (Need.build sub i)) := by
  rw [List.mapM_map]
  rfl

theorem namedEnum_eq :
    namedEnum n i keyName key = (do
      let b ← get
      let form ← MonadExcept.ofExcept (n.namedEnumPlan i b.fileName)
      let name ← standaloneName n (Category.namedEnum.nameKey keyName key)
      carryOut sub n i keyName name form) := by
  unfold namedEnum Node.namedEnumPlan
  refine bind_congr fun b => ?_
  rw [enumNames_eq]
  cases n.enum with
  | arr values =>
    cases Node.listed n.enumNames? with
    | error e => rfl
    | ok names =>
      simp only [MonadExcept.ofExcept, pure_bind, Except.bind]
      by_cases lengths : names.length = values.length
      · simp only [if_neg (not_not.mpr lengths), if_pos lengths, pure_bind, carryOut_collection,
          choices_eq sub i]
        rfl
      · simp only [if_pos lengths, if_neg lengths]
        rfl
  | _ => rfl

theorem enumValues_eq : enumValues n = MonadExcept.ofExcept (Node.listed n.enumValues?) := by
  unfold enumValues Node.enumValues?
  generalize n.enum = v
  cases v with
  | obj entries => rfl
  | _ =>
    dsimp only
    split
    · split <;> simp_all <;> rfl
    · rfl

theorem unnamedEnum_eq :
    unnamedEnum n keyName key = (do
      let values ← MonadExcept.ofExcept (Node.listed n.enumValues?)
      let name ← standaloneName n key
      carryOut sub n i keyName name (n.collectionPlan .union (values.map .value))) := by
  unfold unnamedEnum Node.collectionPlan
  simp only [enumValues_eq, carryOut_collection, literals_eq sub i]

theorem spreadOf_eq (additional : Option Subschema) :
    spreadOf sub additional = (Node.spreadNeed additional).mapM (Need.build sub i) := by
  unfold spreadOf Node.spreadNeed
  split <;> simp [Need.build, addAny]

theorem typedArray_eq :
    typedArray sub n keyName key = (do
      let name ← standaloneName n key
      carryOut sub n i keyName name n.typedArrayPlan) := by
  unfold typedArray Node.typedArrayPlan
  refine bind_congr fun name => ?_
  cases n.items with
  | none => exact (carryOut_one sub i .array (.schema (.bare .null))).symm
  | some items =>
    cases items with
    | each item => exact (carryOut_one sub i .array (.schema item)).symm
    | positions items =>
      simp only [typesOf_eq sub i, spreadOf_eq sub i]
      exact (carryOut_tuple sub i _ _ _ _).symm

theorem anyPlaces_eq (upper : Int) (lower : Json) :
    anyPlaces upper lower = match Node.places? upper lower with
      | some places => pure places
      | none => throw (.misused .bound) := by
  unfold anyPlaces Node.places?
  cases lower.number? with
  | none => rfl
  | some bound =>
    simp only [Option.bind_some]
    split
    · split
      · cases lower.int? <;> rfl
      · rfl
    · rfl

theorem anythings_eq (places : Nat) :
    ((List.replicate places ()).mapM fun _ => return Part.type (← addAny)) =
      ((List.replicate places Need.any).map .type).mapM (Part.traverse (Need.build sub i)) := by
  have needs : List.replicate places Need.any = (List.replicate places ()).map fun _ => .any := by
    simp
  rw [needs, mapM_traverse_type, List.mapM_map]
  rfl

theorem untypedArray_eq :
    untypedArray n keyName key = (do
      let name ← standaloneName n key
      let form ← MonadExcept.ofExcept n.untypedArrayPlan
      carryOut sub n i keyName name form) := by
  unfold untypedArray Node.untypedArrayPlan
  extract_lets lower upper
  refine bind_congr fun name => ?_
  rw [anyPlaces_eq]
  cases Node.places? upper lower with
  | none => rfl
  | some places =>
    cases places with
    | none => exact (carryOut_one sub i .array .any).symm
    | some places =>
      refine Eq.trans ?_ (carryOut_tuple sub i _ _ _ _).symm
      simp only [pure_bind, anythings_eq sub i]
      refine bind_congr fun parts => ?_
      by_cases bounded : 0 ≤ upper
      · simp only [if_pos bounded]
        rfl
      · simp only [if_neg bounded]
        rfl

theorem propertyMembers_eq :
    propertyMembers sub n = n.propertyNeeds.mapM (Member.traverse (Need.build sub i)) := by
  unfold propertyMembers Node.propertyNeeds
  rw [List.mapM_map]
  rfl

theorem patternMembers_eq :
    patternMembers sub n name =
      (n.patternNeeds name).mapM (Member.traverse (Need.build sub i)) := by
  unfold patternMembers Node.patternNeeds
  rw [List.mapM_map]
  congr 1
  funext e
  simp only [Function.comp_apply]
  by_cases single : hasSinglePattern n = true
  · simp [single, Member.traverse, Need.build]
  · simp [single, Member.traverse, Need.build]

theorem definitionMembers_eq :
    definitionMembers sub n name =
      (n.definitionNeeds name).mapM (Member.traverse (Need.build sub i)) := by
  unfold definitionMembers Node.definitionNeeds
  rw [List.mapM_map]
  congr 1
  funext e
  simp [Member.traverse, Need.build]

theorem additionalMembers_eq :
    additionalMembers sub n = n.additionalNeeds.mapM (Member.traverse (Need.build sub i)) := by
  have anything :
      (if hasSinglePattern n then return [] else do
        let type ← addType { kind := some .any, keyName := some indexKey }
        return [{ key := indexKey, type, isRequired := true }]) =
      (if hasSinglePattern n then []
        else [{ key := indexKey, type := .any (some indexKey), isRequired := true }]).mapM
          (Member.traverse (Need.build sub i)) := by
    by_cases single : hasSinglePattern n = true
    · simp [single]
    · simp [single, Member.traverse, Need.build]
  unfold additionalMembers Node.additionalNeeds
  cases n.additionalProperties with
  | none => exact anything
  | some s =>
    cases s with
    | bool allowed =>
      cases allowed with
      | true => exact anything
      | false => rfl
    | bare v => rfl
    | node j => simp [Member.traverse, Need.build]

theorem members_eq :
    members sub n name = (n.memberNeeds name).mapM (Member.traverse (Need.build sub i)) := by
  unfold members Node.memberNeeds
  rw [propertyMembers_eq sub i, patternMembers_eq sub i, definitionMembers_eq sub i,
    additionalMembers_eq sub i]
  simp only [List.mapM_append, bind_assoc, pure_bind, List.append_assoc]

theorem superTypes_eq : superTypes sub n = n.superNeeds.mapM (Need.build sub i) := by
  have each (bases : Bases) : (bases.toList.mapM fun s => sub s none) =
      (bases.toList.map fun s => Need.schema s).mapM (Need.build sub i) := by
    rw [List.mapM_map]
    rfl
  unfold superTypes Node.superNeeds
  cases n.bases with
  | none => rfl
  | some bases =>
    cases bases with
    | null => exact each .null
    | many bases => exact each (.many bases)
    | one base =>
      cases base with
      | node j => exact each (.one (.node j))
      | bare v => exact each (.one (.bare v))
      | bool allowed =>
        cases allowed with
        | true => exact each (.one (.bool true))
        | false => rfl

theorem interface_eq :
    interface sub n keyName key = (do
      let name ← standaloneName n key
      carryOut sub n i keyName name (n.interfacePlan name)) := by
  unfold interface
  refine bind_congr fun name => ?_
  rw [members_eq sub i, superTypes_eq sub i]
  refine Eq.trans ?_
    (carryOut_parts sub i { n.outline .interface with superTypes := n.superNeeds } _).symm
  rw [mapM_traverse_member]
  simp [Node.outline, Node.dress, Node.describe]

theorem union_eq :
    union sub n i keyName key = (do
      let name ← standaloneName n key
      carryOut sub n i keyName name (n.collectionPlan .union (n.typeList.map .copy))) := by
  unfold union Node.collectionPlan
  refine bind_congr fun name => ?_
  rw [carryOut_collection, mapM_traverse_type, List.mapM_map]
  simp only [Function.comp_def, Need.build, bind_assoc]
  rfl

/-- The type of a node is built after its plan. -/
theorem shape_eq_planned : shape sub i category keyName = planned sub i category keyName := by
  unfold shape planned
  refine bind_congr fun key => bind_congr fun n => ?_
  cases category with
  | allOf => exact collection_eq sub i _ _
  | anyOf => exact collection_eq sub i _ _
  | oneOf => exact collection_eq sub i _ _
  | any => exact scalar_eq sub i _
  | customType => exact customType_eq sub i
  | namedEnum =>
    simp only [namedEnum_eq sub]
    refine bind_congr fun b => ?_
    unfold Node.plan
    cases n.namedEnumPlan i b.fileName <;> rfl
  | unnamedEnum =>
    simp only [unnamedEnum_eq sub i]
    unfold Node.plan
    cases Node.listed n.enumValues? <;> rfl
  | namedSchema => exact interface_eq sub i
  | unnamedSchema => exact interface_eq sub i
  | reference => rfl
  | typedArray => exact typedArray_eq sub i
  | untypedArray => exact untypedArray_eq sub i
  | union => exact union_eq sub i
  | boolean => exact scalar_eq sub i _
  | null => exact scalar_eq sub i _
  | number => exact scalar_eq sub i _
  | object => exact scalar_eq sub i _
  | string => exact scalar_eq sub i _

end

/-- What is needed for the type of a node in a category before anything below is built: the node,
the name of the type, and its form. -/
def prepare (i : NodeId) (category : Category) (keyName : Option String) :
    Build (Node × Option String × Form Need) := do
  let key ← definitionKey i
  let n ← schema i
  let b ← get
  let plan ← MonadExcept.ofExcept (n.plan i b.fileName category)
  let name ← standaloneName n (category.nameKey keyName key)
  let form ← MonadExcept.ofExcept (plan name)
  return (n, name, form)

theorem shape_eq_prepare (sub : Subbuild) (i : NodeId) (category : Category)
    (keyName : Option String) :
    shape sub i category keyName = (do
      let (n, name, form) ← prepare i category keyName
      return n.dress keyName name (← form.traverse (Need.build sub i))) := by
  rw [shape_eq_planned, planned, prepare]
  simp only [bind_assoc, pure_bind]

end Build
end LinkedSchema
