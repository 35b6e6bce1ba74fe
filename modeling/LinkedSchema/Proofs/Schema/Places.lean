import LinkedSchema.Proofs.Search
import LinkedSchema.Schema.Ingest
import Mathlib.Data.List.Forall2
/-! The objects of a document and the places where they stand. Two objects are the same if they
stand in the same place; links all stand for the one object of their part. What a document means as
a graph is told here without any graph being made of it. -/
namespace LinkedSchema

/-- A position for a schema within an object: a keyword and, where the keyword has several schemas,
the number of one of them. -/
structure Slot where
  keyword : String
  index : Option Nat
  deriving DecidableEq

/-- Where an object stands: in a part or, without a name, in the root, and the way from there. -/
structure Place where
  origin : Option String
  path : List Slot
  deriving DecidableEq

def Place.inner (p : Place) (slot : Slot) : Place := { p with path := p.path ++ [slot] }

/-- The values that keywords with schemas may have. -/
inductive Container where
  | single
  | list
  | map
  /-- One schema or a list of them. -/
  | items
  /-- One schema, a list of them, or null. -/
  | bases
  deriving DecidableEq

/-- The keywords with schemas, in the order in which they are read. -/
def schemaKeywords : List (String × Container) :=
  [("additionalProperties", .single), ("additionalItems", .single), ("allOf", .list),
    ("anyOf", .list), ("oneOf", .list), ("properties", .map), ("patternProperties", .map),
    ("items", .items), ("extends", .bases), ("definitions", .map), ("$defs", .map)]

/-- A slot for each of several schemas under a keyword. -/
def Slot.several (keyword : String) (count : Nat) : List Slot :=
  (List.range count).map (⟨keyword, some ·⟩)

namespace Container

/-- Whether a value is a container of the shape, or may be a schema if none is called for. -/
def Fits : Container → Json → Prop
  | .list, v => v.isArr
  | .map, v => v.isObj
  | _, _ => True

/-- The slots of a value of the shape, in order. -/
def slots (keyword : String) : Container → Json → List Slot
  | .single, _ => [⟨keyword, none⟩]
  | .map, .obj entries => Slot.several keyword entries.length
  | .bases, .null => []
  | .list, .arr values | .items, .arr values | .bases, .arr values =>
    Slot.several keyword values.length
  | .items, _ | .bases, _ => [⟨keyword, none⟩]
  | .list, _ | .map, _ => []

end Container

/-- What stands in a slot of an object. -/
def Slot.value? (fields : Entries Json) (slot : Slot) : Option Json :=
  match fields.lookup slot.keyword, slot.index with
  | some v, none => some v
  | some (.arr values), some k => values[k]?
  | some (.obj entries), some k => entries[k]?.map (·.2)
  | _, _ => none

/-- The slots under a keyword of an object. -/
def slotsUnder (fields : Entries Json) (e : String × Container) : List Slot :=
  match fields.lookup e.1 with
  | some v => e.2.slots e.1 v
  | none => []

def slotsOf (fields : Entries Json) : List Slot := schemaKeywords.flatMap (slotsUnder fields)

/-- A first look at an object: at what place, and in a slot of which other object. -/
structure Meeting where
  source : Option Place
  target : Place

namespace Document

variable (d : Document)

/-- The object of a part, or the one that the root is. -/
def textFields : Option String → Option (Entries Json)
  | none => match d.root with
    | .obj fields => some fields
    | _ => none
  | some name => match d.parts.lookup name with
    | some (.obj fields) => some fields
    | _ => none

/-- The object in a slot of another one. -/
def innerFields (fields : Entries Json) (slot : Slot) : Option (Entries Json) :=
  match slot.value? fields with
  | some (.obj entries) => some entries
  | _ => none

/-- The object at a place. -/
def fieldsAt (p : Place) : Option (Entries Json) :=
  p.path.foldl (fun fields slot => fields.bind (innerFields · slot)) (d.textFields p.origin)

/-- The place of the object that a value stands for: that of a part if it is a link, or else its
own. -/
def stands? (here : Place) (v : Json) : Option Place :=
  match v.link?, v with
  | some name, _ => (d.target? (d.parts.length + 1) name).map fun found => ⟨some found.1, []⟩
  | none, .obj _ => some here
  | none, _ => none

/-- The place of the object that the document is. -/
def start? : Option Place := d.stands? ⟨none, []⟩ d.root

def slotsAt (p : Place) : List Slot := ((d.fieldsAt p).map slotsOf).getD []

/-- The place of the object that stands in a slot of the object at a place. -/
def leads? (p : Place) (slot : Slot) : Option Place :=
  ((d.fieldsAt p).bind slot.value?).bind (d.stands? (p.inner slot))

def Leads (p q : Place) : Prop := ∃ slot ∈ d.slotsAt p, d.leads? p slot = some q

def Reaches : Place → Place → Prop := Relation.ReflTransGen d.Leads

/-- The objects met in slots of the object at a place. -/
def meetingsIn (p : Place) (slots : List Slot) : List Meeting :=
  slots.filterMap fun slot => (d.leads? p slot).map (⟨some p, ·⟩)

def meetings (p : Place) : List Meeting := d.meetingsIn p (d.slotsAt p)

/-- A boolean, or a value that stands for an object. -/
def IsSchema (here : Place) (v : Json) : Prop := v.isBool ∨ (d.stands? here v).isSome

/-- The keywords of the object at a place have the containers that they call for, and schemas in all
slots. -/
def Sound (p : Place) : Prop :=
  ∀ fields, d.fieldsAt p = some fields →
    (∀ e ∈ schemaKeywords, ∀ v, fields.lookup e.1 = some v → e.2.Fits v) ∧
    ∀ slot ∈ slotsOf fields, ∀ v, slot.value? fields = some v → d.IsSchema (p.inner slot) v

/-- The document is an object, and this one and all others that it leads to are sound. -/
def WellFormed : Prop := ∃ p, d.start? = some p ∧ ∀ q, d.Reaches p q → d.Sound q

variable {d} in
theorem fieldsAt_inner {p : Place} {fields entries : Entries Json} {slot : Slot}
    (here : d.fieldsAt p = some fields) (found : slot.value? fields = some (.obj entries)) :
    d.fieldsAt (p.inner slot) = some entries := by
  unfold fieldsAt at here ⊢
  rw [Place.inner, List.foldl_concat, here]
  simp only [Option.bind_some, innerFields, found]

/-- A schema of a node is what stands in a slot of the object at a place. Which nodes are made of
the objects at which places is given. -/
def Holds (made : NodeId → Place → Prop) (p : Place) (fields : Entries Json) (slot : Slot) :
    Subschema → Prop
  | .bool b => slot.value? fields = some (.bool b)
  | .node j => ∃ q, d.leads? p slot = some q ∧ made j q
  | .bare _ => False

end Document

section Reads

variable (holds : Slot → Subschema → Prop) (keyword : String)

def ReadsSingle (_ : Json) (s : Subschema) : Prop := holds ⟨keyword, none⟩ s

def ReadsList : Json → List Subschema → Prop
  | .arr values, members => List.Forall₂ holds (Slot.several keyword values.length) members
  | _, _ => False

def ReadsMap : Json → Entries Subschema → Prop
  | .obj values, entries => Entries.names entries = Entries.names values ∧
    List.Forall₂ holds (Slot.several keyword values.length) (entries.map (·.2))
  | _, _ => False

def ReadsItems (v : Json) : Items → Prop
  | .each s => v.isArr = false ∧ holds ⟨keyword, none⟩ s
  | .positions members => ReadsList holds keyword v members

def ReadsBases (v : Json) : Bases → Prop
  | .null => v = .null
  | .one s => v.isArr = false ∧ v ≠ .null ∧ holds ⟨keyword, none⟩ s
  | .many members => ReadsList holds keyword v members

variable {holds keyword} {wider : Slot → Subschema → Prop}

theorem ReadsList.imp (more : ∀ slot s, holds slot s → wider slot s) {v : Json}
    {members : List Subschema} (h : ReadsList holds keyword v members) :
    ReadsList wider keyword v members := by
  cases v with
  | arr values => exact List.Forall₂.imp more h
  | _ => exact h

theorem ReadsMap.imp (more : ∀ slot s, holds slot s → wider slot s) {v : Json}
    {entries : Entries Subschema} (h : ReadsMap holds keyword v entries) :
    ReadsMap wider keyword v entries := by
  cases v with
  | obj values => exact ⟨h.1, h.2.imp more⟩
  | _ => exact h

theorem ReadsItems.imp (more : ∀ slot s, holds slot s → wider slot s) {v : Json} {items : Items}
    (h : ReadsItems holds keyword v items) : ReadsItems wider keyword v items := by
  cases items with
  | each s => exact ⟨h.1, more _ _ h.2⟩
  | positions members => exact ReadsList.imp more h

theorem ReadsBases.imp (more : ∀ slot s, holds slot s → wider slot s) {v : Json} {bases : Bases}
    (h : ReadsBases holds keyword v bases) : ReadsBases wider keyword v bases := by
  cases bases with
  | null => exact h
  | one s => exact ⟨h.1, h.2.1, more _ _ h.2.2⟩
  | many members => exact ReadsList.imp more h

end Reads

/-- Two maps in one, with nothing else in it. Under a name of both stands what the newer one has
there. -/
def MergesTo : Option (Entries Subschema) → Option (Entries Subschema) →
    Option (Entries Subschema) → Prop
  | some older, some newer, some merged => (∀ e ∈ merged, e ∈ newer ∨ e ∈ older) ∧
    ∀ name, merged.lookup name = (newer.reverse.lookup name).or (older.lookup name)
  | some older, none, merged => merged = some older
  | none, newer, merged => merged = newer
  | some _, some _, none => False

namespace Document

variable (d : Document) (made : NodeId → Place → Prop) (p : Place) (fields : Entries Json)

/-- What a node has for a keyword is what stands under it, or nothing if nothing does. -/
def Reads {α : Type} (keyword : String)
    (rel : (Slot → Subschema → Prop) → String → Json → α → Prop) (x : Option α) : Prop :=
  Option.Rel (rel (d.Holds made p fields) keyword) (fields.lookup keyword) x

/-- A node that says the same as the object at a place, and whose edges lead to the nodes of the
objects that stand in the slots. -/
structure Mirrors (n : Node) : Prop where
  plain : ∀ e ∈ n.plainKeywords, e.2 = (fields.lookup e.1).getD .null
  const : n.const = fields.lookup "const"
  default : n.default = fields.lookup "default"
  additionalProperties : d.Reads made p fields "additionalProperties" ReadsSingle
    n.additionalProperties
  additionalItems : d.Reads made p fields "additionalItems" ReadsSingle n.additionalItems
  allOf : d.Reads made p fields "allOf" ReadsList n.allOf
  anyOf : d.Reads made p fields "anyOf" ReadsList n.anyOf
  oneOf : d.Reads made p fields "oneOf" ReadsList n.oneOf
  properties : d.Reads made p fields "properties" ReadsMap n.properties
  patternProperties : d.Reads made p fields "patternProperties" ReadsMap n.patternProperties
  items : d.Reads made p fields "items" ReadsItems n.items
  bases : d.Reads made p fields "extends" ReadsBases n.bases
  definitions : ∃ older newer, d.Reads made p fields "definitions" ReadsMap older ∧
    d.Reads made p fields "$defs" ReadsMap newer ∧ MergesTo older newer n.definitions

variable {d made p fields} {wider : NodeId → Place → Prop} {n : Node}

theorem Holds.imp (more : ∀ i q, made i q → wider i q) (slot : Slot) (s : Subschema)
    (h : d.Holds made p fields slot s) : d.Holds wider p fields slot s := by
  cases s with
  | node i =>
    obtain ⟨q, leads, here⟩ := h
    exact ⟨q, leads, more i q here⟩
  | _ => exact h

theorem Reads.imp {α : Type} {keyword : String}
    {rel : (Slot → Subschema → Prop) → String → Json → α → Prop} {x : Option α}
    (h : d.Reads made p fields keyword rel x)
    (more : ∀ v a, rel (d.Holds made p fields) keyword v a →
      rel (d.Holds wider p fields) keyword v a) : d.Reads wider p fields keyword rel x := by
  unfold Reads at h ⊢
  generalize fields.lookup keyword = v at h ⊢
  cases h with
  | none => exact .none
  | some reads => exact .some (more _ _ reads)

/-- A node that mirrors an object does so when more nodes are made. -/
theorem Mirrors.imp (more : ∀ i q, made i q → wider i q) (h : d.Mirrors made p fields n) :
    d.Mirrors wider p fields n := by
  have holds (slot : Slot) (s : Subschema) (h : d.Holds made p fields slot s) :
      d.Holds wider p fields slot s := h.imp more slot s
  obtain ⟨older, newer, reads, reads', merges⟩ := h.definitions
  exact {
    plain := h.plain
    const := h.const
    default := h.default
    additionalProperties := h.additionalProperties.imp fun _ _ => holds _ _
    additionalItems := h.additionalItems.imp fun _ _ => holds _ _
    allOf := h.allOf.imp fun _ _ => ReadsList.imp holds
    anyOf := h.anyOf.imp fun _ _ => ReadsList.imp holds
    oneOf := h.oneOf.imp fun _ _ => ReadsList.imp holds
    properties := h.properties.imp fun _ _ => ReadsMap.imp holds
    patternProperties := h.patternProperties.imp fun _ _ => ReadsMap.imp holds
    items := h.items.imp fun _ _ => ReadsItems.imp holds
    bases := h.bases.imp fun _ _ => ReadsBases.imp holds
    definitions := ⟨older, newer, reads.imp fun _ _ => ReadsMap.imp holds,
      reads'.imp fun _ _ => ReadsMap.imp holds, merges⟩ }

end Document
end LinkedSchema
