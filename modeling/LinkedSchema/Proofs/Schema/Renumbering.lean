import LinkedSchema.Proofs.Schema.Orphans
import LinkedSchema.Schema.Category
/-! Nodes of graphs in which all nodes have other numbers. Nothing but the numbers themselves
depends on them. -/
namespace LinkedSchema

variable {n : Node} {f : NodeId → NodeId} {p : Option NodeId}

namespace Subschema

def renumber (f : NodeId → NodeId) : Subschema → Subschema
  | .node i => .node (f i)
  | s => s

end Subschema

def Items.renumber (f : NodeId → NodeId) : Items → Items
  | .each item => .each (item.renumber f)
  | .positions items => .positions (items.map (·.renumber f))

def Bases.renumber (f : NodeId → NodeId) : Bases → Bases
  | .null => .null
  | .one base => .one (base.renumber f)
  | .many bases => .many (bases.map (·.renumber f))

def Entries.renumber (f : NodeId → NodeId) (entries : Entries Subschema) : Entries Subschema :=
  entries.map fun e => (e.1, e.2.renumber f)

def Visit.renumber (f : NodeId → NodeId) (v : Visit) : Visit := { v with node := f v.node }

namespace Node

/-- The node in a graph of other numbers, below some parent. -/
def renumber (n : Node) (f : NodeId → NodeId) (p : Option NodeId) : Node :=
  { n with
    additionalProperties := n.additionalProperties.map (·.renumber f)
    additionalItems := n.additionalItems.map (·.renumber f)
    allOf := n.allOf.map (·.map (·.renumber f))
    anyOf := n.anyOf.map (·.map (·.renumber f))
    oneOf := n.oneOf.map (·.map (·.renumber f))
    properties := n.properties.map (Entries.renumber f)
    patternProperties := n.patternProperties.map (Entries.renumber f)
    items := n.items.map (·.renumber f)
    bases := n.bases.map (·.renumber f)
    definitions := n.definitions.map (Entries.renumber f)
    parent := p }

/-- Whether a node is another one with other numbers, below whatever parent. -/
def Echoes (f : NodeId → NodeId) (m n : Node) : Prop := ∃ p, m = n.renumber f p

end Node

/-! The same numbers again make the same node. -/

theorem Subschema.renumber_id : renumber id = id := by
  funext s
  cases s <;> rfl

theorem Entries.renumber_id : renumber id = id := by
  funext entries
  simp [renumber, Subschema.renumber_id]

theorem Items.renumber_id : renumber id = id := by
  funext items
  cases items <;> simp [renumber, Subschema.renumber_id]

theorem Bases.renumber_id : renumber id = id := by
  funext bases
  cases bases <;> simp [renumber, Subschema.renumber_id]

theorem withParent_eq_renumber (n : Node) (p : Option NodeId) :
    n.withParent p = n.renumber id p := by
  simp [Node.renumber, Node.withParent, Subschema.renumber_id, Entries.renumber_id,
    Items.renumber_id, Bases.renumber_id]

theorem Visit.ofMember?_renumber (s : Subschema) :
    ofMember? (s.renumber f) = (ofMember? s).map (renumber f) := by cases s <;> rfl

theorem Visit.ofEntry?_renumber (e : String × Subschema) :
    ofEntry? (e.1, e.2.renumber f) = Option.map (renumber f) ( ofEntry? e) := by
  obtain ⟨key, s⟩ := e
  cases s <;> rfl

theorem Items.toList_renumber (items : Items) :
    (items.renumber f).toList = items.toList.map (·.renumber f) := by cases items <;> rfl

theorem Bases.toList_renumber (bases : Bases) :
    (bases.renumber f).toList = bases.toList.map (·.renumber f) := by cases bases <;> rfl

namespace Visit

theorem ofMembers_renumber (members : Option (List Subschema)) :
    ofMembers (members.map (·.map (·.renumber f))) = (ofMembers members).map (renumber f) := by
  cases members with
  | none => rfl
  | some members =>
    simp [ofMembers, List.filterMap_map, List.map_filterMap, ofMember?_renumber]

theorem ofEntries_renumber (entries : Option (Entries Subschema)) :
    ofEntries (entries.map (Entries.renumber f)) = (ofEntries entries).map (renumber f) := by
  cases entries with
  | none => rfl
  | some entries =>
    simp [ofEntries, Entries.renumber, List.filterMap_map, List.map_filterMap,
      ofEntry?_renumber]

theorem ofSingle_renumber (s : Option Subschema) :
    ofSingle (s.map (·.renumber f)) = (ofSingle s).map (renumber f) := by
  cases s with
  | none => rfl
  | some s => cases s <;> rfl

end Visit

namespace Node

theorem successors_renumber (n : Node) (f : NodeId → NodeId) (p : Option NodeId) :
    (n.renumber f p).successors = n.successors.map (Visit.renumber f) := by
  have items : (n.renumber f p).items.map Items.toList =
      (n.items.map Items.toList).map (·.map (·.renumber f)) := by
    cases h : n.items <;> simp [renumber, h, Items.toList_renumber]
  have bases : (n.renumber f p).bases.map Bases.toList =
      (n.bases.map Bases.toList).map (·.map (·.renumber f)) := by
    cases h : n.bases <;> simp [renumber, h, Bases.toList_renumber]
  unfold successors
  rw [items, bases]
  simp only [renumber, List.map_append, Visit.ofMembers_renumber, Visit.ofEntries_renumber,
    Visit.ofSingle_renumber]

theorem lacksBases_renumber (bases : Option Bases) :
    lacksBases (bases.map (·.renumber f)) = lacksBases bases := by
  cases bases with
  | none => rfl
  | some bases => cases bases <;> rfl

theorem isEmpty_renumber : (n.renumber f p).isEmpty = n.isEmpty := by
  have plain : (n.renumber f p).plainKeywords = n.plainKeywords := rfl
  unfold isEmpty
  rw [plain]
  simp only [renumber, Option.isNone_map, lacksBases_renumber]

theorem isObjectLike_renumber : (n.renumber f p).isObjectLike = n.isObjectLike := by
  have type (name : String) : (n.renumber f p).hasType name = n.hasType name := rfl
  unfold isObjectLike
  rw [type, type]
  simp only [renumber, Option.isSome_map]

theorem isArrayLike_renumber : (n.renumber f p).isArrayLike = n.isArrayLike := by
  have type (name : String) : (n.renumber f p).hasType name = n.hasType name := rfl
  unfold isArrayLike
  rw [type, type]
  simp only [renumber, Option.isSome_map]

theorem isCompound_renumber : (n.renumber f p).isCompound = n.isCompound := by
  simp only [isCompound, renumber, Option.isSome_map]

theorem isScalar_renumber (types : List String) (kind : Json → Bool) :
    (n.renumber f p).isScalar types kind = n.isScalar types kind := by
  have given : (n.renumber f p).defaultMeets kind = n.defaultMeets kind := rfl
  unfold isScalar
  rw [isCompound_renumber, given]
  rfl

theorem isPlainObject_renumber : (n.renumber f p).isPlainObject = n.isPlainObject := by
  have additional : ((n.renumber f p).additionalProperties.bind Subschema.node?).isNone =
      (n.additionalProperties.bind Subschema.node?).isNone := by
    cases h : n.additionalProperties with
    | none => simp [renumber, h]
    | some s => cases s <;> simp [renumber, h, Subschema.renumber, Subschema.node?]
  unfold isPlainObject
  rw [additional]
  simp only [renumber, Option.isNone_map]

theorem holds_renumber (category : Category) :
    Category.holds (n.renumber f p) category = Category.holds n category := by
  cases category with
  | any =>
    have type : (n.renumber f p).type = n.type := rfl
    simp only [Category.holds, isEmpty_renumber, type]
  | boolean => exact isScalar_renumber _ _
  | number => exact isScalar_renumber _ _
  | string => exact isScalar_renumber _ _
  | object => exact isPlainObject_renumber
  | _ => simp only [Category.holds, isUnnamedEnum, renumber, Option.isSome_map, Option.isNone_map]

theorem categories_renumber : (n.renumber f p).categories = n.categories := by
  have custom : (n.renumber f p).tsType = n.tsType := rfl
  unfold categories
  rw [custom]
  simp only [holds_renumber]

end Node
end LinkedSchema
