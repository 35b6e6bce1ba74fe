import LinkedSchema.Json.Display
import LinkedSchema.Json.Number
import LinkedSchema.Normalize.Options
import LinkedSchema.Text.CommentEnd
import LinkedSchema.Text.Lines
/-! The rules that bring schemas to a normal form. Each rule rewrites one node and looks at nothing
else; later rules rely on what earlier ones leave behind. -/
namespace LinkedSchema

/-- Why a rule cannot be applied to a node. -/
inductive Defect where
  | conflictingIds (legacyId id : Json)
  | misused (as : Misuse)

/-- A named step of the normalization. -/
structure Rule where
  name : String
  apply : Options → Node → Except Defect Node

namespace Rule

def admitsNull (n : Node) : Bool :=
  (match n.enum with
    | .arr values => values.any Json.isNull
    | _ => false) ||
  (n.const.map Json.isNull).getD false

/-- A type `null` among others says nothing that a null among the values does not say. -/
def dropNullType (n : Node) : Node :=
  match n.type with
  | .arr types =>
    if admitsNull n && types.any (·.isStr "null") then
      { n with type := .arr (types.filter (!·.isStr "null")) }
    else n
  | _ => n

def unwrapSingleType (n : Node) : Node :=
  match n.type with
  | .arr [type] => { n with type }
  | _ => n

def defaultRequired (n : Node) : Node :=
  if n.isObjectLike && n.required.isNull then { n with required := .arr [] } else n

def listRequired (n : Node) : Node :=
  match n.required with
  | .bool false => { n with required := .arr [] }
  | _ => n

def defaultAdditionalProperties (n : Node) : Node :=
  if n.isObjectLike && n.additionalProperties.isNone && n.patternProperties.isNone then
    { n with additionalProperties := some (.bool true) }
  else n

/-- The identifier of older documents takes the place of the newer one, which it must not
contradict. -/
def moveLegacyId (n : Node) : Except Defect Node :=
  if n.legacyId.truthy then
    if n.id.truthy && !n.legacyId.alike n.id then .error (.conflictingIds n.legacyId n.id)
    else .ok { n with id := n.legacyId, legacyId := .null }
  else .ok n

/-- Descriptions end up in block comments, which they must not end. -/
def escapeDescription (n : Node) : Node :=
  match n.description with
  | .str text => { n with description := .str (.ofList (splitCommentEnds ' ' text.toList)) }
  | _ => n

/-- Appends lines to a text, with a blank line between the two. -/
def appendLines (text : String) (lines : List String) : String :=
  if text.isEmpty then "\n".intercalate lines else text ++ "\n\n" ++ "\n".intercalate lines

/-- The lines that document the bounds of an array. A lower bound of zero is none. -/
def boundLines (n : Node) : List String :=
  (if n.minItems.truthy then ["@minItems " ++ n.minItems.plain] else []) ++
    (if n.maxItems.isNull then [] else ["@maxItems " ++ n.maxItems.plain])

/-- The description as a text, if it is one or does not count as given. -/
def descriptionText? (n : Node) : Option String :=
  match n.description with
  | .str text => some text
  | v => if v.truthy then none else some ""

/-- Writes the bounds into the description, unless they stand there already. -/
def documentBounds (n : Node) : Except Defect Node :=
  if !n.isArrayLike || (boundLines n).isEmpty then .ok n
  else
    match descriptionText? n with
    | none => .error (.misused .description)
    | some text =>
      let missing := (boundLines n).filter (!(linesOf text).contains ·)
      if missing.isEmpty then .ok n
      else .ok { n with description := .str (appendLines text missing) }

def stripBounds (options : Options) (n : Node) : Node :=
  if options.stripItemBounds && n.isArrayLike then
    { n with minItems := .null, maxItems := .null }
  else n

/-- There is no default for the upper bound, since an upper bound of zero has a meaning. -/
def defaultMinItems (n : Node) : Node :=
  if n.isArrayLike && n.minItems.int?.isNone then { n with minItems := .int 0 } else n

/-- Bounds too far apart do not make a tuple. -/
def dropWideMaxItems (options : Options) (n : Node) : Except Defect Node :=
  if !n.isArrayLike || n.maxItems.isNull then .ok n
  else
    match n.maxItems.number?, n.minItems.orZero.number? with
    | some upper, some lower =>
      match upper.sub? lower with
      | some width =>
        if Number.less (.int options.maxTupleSize) width then .ok { n with maxItems := .null }
        else .ok n
      | none => .error (.misused .magnitude)
    | _, _ => .error (.misused .bound)

/-- The number of places of a tuple: the larger of its bounds, which has to be an integer. -/
def placeCount (n : Node) : Except Defect Nat :=
  let upper := n.maxItems.orZero
  let lower := n.minItems.orZero
  match upper.number?, lower.number? with
  | some x, some y =>
    match (if x.less y then lower else upper).int? with
    | some count => .ok count.toNat
    | none => .error (.misused .bound)
  | _, _ => .error (.misused .bound)

def upperBound? (n : Node) : Option Int := n.maxItems.int?.filter (0 ≤ ·)

def lowerBound? (n : Node) : Option Int := n.minItems.int?.filter (0 < ·)

/-- An array with bounds becomes a tuple with a place for each element; without an upper bound,
further elements are like the ones before. -/
def repeatItem (n : Node) : Except Defect Node :=
  match n.items with
  | some (.each item) =>
    if (upperBound? n).isSome || (lowerBound? n).isSome then do
      let count ← placeCount n
      let n := { n with items := some (.positions (List.replicate count item)) }
      .ok (if (upperBound? n).isSome then n else { n with additionalItems := some item })
    else .ok n
  | _ => .ok n

/-- A tuple has no place beyond its upper bound. -/
def truncateItems (n : Node) : Node :=
  match n.items, upperBound? n with
  | some (.positions items), some upper =>
    { n with items := some (.positions (items.take upper.toNat)) }
  | _, _ => n

def expandItems (n : Node) : Except Defect Node := do return truncateItems (← repeatItem n)

def dropEmptyBases (n : Node) : Node :=
  match n.bases with
  | some .null | some (.many []) => { n with bases := none }
  | _ => n

def listBases (n : Node) : Node :=
  match n.bases with
  | some (.one base) => { n with bases := some (.many [base]) }
  | _ => n

def constToEnum (n : Node) : Node :=
  match n.const with
  | some v => { n with enum := .arr [v], const := none }
  | none => n

/-- All rules in the order of the normalization. -/
def all : List Rule := [
  ⟨"Remove `type=[\"null\"]` if `enum=[null]`", fun _ n => .ok (dropNullType n)⟩,
  ⟨"Destructure unary types", fun _ n => .ok (unwrapSingleType n)⟩,
  ⟨"Add empty `required` property if none is defined", fun _ n => .ok (defaultRequired n)⟩,
  ⟨"Transform `required`=false to `required`=[]", fun _ n => .ok (listRequired n)⟩,
  ⟨"Default additionalProperties", fun _ n => .ok (defaultAdditionalProperties n)⟩,
  ⟨"Transform id to $id", fun _ n => moveLegacyId n⟩,
  ⟨"Escape closing block comment", fun _ n => .ok (escapeDescription n)⟩,
  ⟨"Add comments for minItems and maxItems", fun _ n => documentBounds n⟩,
  ⟨"Optionally remove maxItems and minItems", fun o n => .ok (stripBounds o n)⟩,
  ⟨"Normalize schema.minItems", fun _ n => .ok (defaultMinItems n)⟩,
  ⟨"Remove maxItems if it is big enough to likely cause OOMs", dropWideMaxItems⟩,
  ⟨"Normalize schema.items", fun _ n => expandItems n⟩,
  ⟨"Remove extends, if it is empty", fun _ n => .ok (dropEmptyBases n)⟩,
  ⟨"Make extends always an array, if it is defined", fun _ n => .ok (listBases n)⟩,
  ⟨"Transform const to singleton enum", fun _ n => .ok (constToEnum n)⟩]

end Rule
end LinkedSchema
