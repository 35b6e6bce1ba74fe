import LinkedSchema.Proofs.Json.Same
import LinkedSchema.Proofs.Schema.Places
import LinkedSchema.Schema.Export
/-! What an export leaves of a document without links, told from the document alone. -/
namespace LinkedSchema

/-- The keywords with values that are not schemas, except for constants and defaults. -/
def plainNames : List String :=
  ["type", "minItems", "maxItems", "required", "enum", "tsEnumNames", "tsType", "title", "$id",
    "id", "description", "deprecated", "$ref"]

/-- The keywords with values that are not schemas. -/
def valueNames : List String := plainNames ++ ["const", "default"]

namespace Json

/-- The definitions under both of their keywords; those under `$defs` win. -/
def folded : Option Json → Option Json → Option Json
  | some (.obj older), some (.obj newer) => some (.obj (Entries.merge older newer))
  | none, newer => newer
  | older, _ => older

/-- The fields of an object that are known. Some of the keywords are dropped if they are null. -/
def known (lossy : List String) (fields : Entries Json) : Entries (Option Json) :=
  valueNames.map (fun name =>
    (name, (fields.lookup name).filter fun v => !(v.isNull && lossy.contains name))) ++
  (schemaKeywords.take 9).map (fun e => (e.1, fields.lookup e.1)) ++
  [("definitions", folded (fields.lookup "definitions") (fields.lookup "$defs"))]

mutual

/-- A value without what is dropped from the objects in it, under a keyword that calls for a value
of a shape. -/
def tidy (lossy : List String) : Container → Json → Json
  | .map, .obj entries => .obj (tidyEntries lossy entries)
  | _, .obj fields => .obj (known lossy (tidyFields lossy fields)).present
  | _, .arr values => .arr (tidyValues lossy values)
  | _, v => v

def tidyValues (lossy : List String) : List Json → List Json
  | [] => []
  | v :: rest => tidy lossy .single v :: tidyValues lossy rest

def tidyEntries (lossy : List String) : List (String × Json) → List (String × Json)
  | [] => []
  | (name, v) :: rest => (name, tidy lossy .single v) :: tidyEntries lossy rest

def tidyFields (lossy : List String) : List (String × Json) → List (String × Json)
  | [] => []
  | (name, v) :: rest =>
    (name, match schemaKeywords.lookup name with
      | some shape => tidy lossy shape v
      | none => v) :: tidyFields lossy rest

end

mutual

/-- Whether no object in the value is a link. -/
def linkFree : Json → Bool
  | .arr values => valuesLinkFree values
  | .obj entries => (Json.obj entries).link?.isNone && entriesLinkFree entries
  | _ => true

def valuesLinkFree : List Json → Bool
  | [] => true
  | v :: rest => v.linkFree && valuesLinkFree rest

def entriesLinkFree : List (String × Json) → Bool
  | [] => true
  | (_, v) :: rest => v.linkFree && entriesLinkFree rest

end

variable {lossy : List String} {v : Json} {name : String}

theorem tidyValues_eq (values : List Json) :
    tidyValues lossy values = values.map (tidy lossy .single) := by
  induction values with
  | nil => rfl
  | cons v rest ih => rw [tidyValues, ih, List.map_cons]

theorem tidyEntries_eq (entries : Entries Json) :
    tidyEntries lossy entries = entries.map fun e => (e.1, tidy lossy .single e.2) := by
  induction entries with
  | nil => rfl
  | cons e rest ih => rw [tidyEntries, ih, List.map_cons]

theorem lookup_tidyFields (fields : Entries Json) :
    (tidyFields lossy fields).lookup name = (fields.lookup name).map fun v =>
      match schemaKeywords.lookup name with
      | some shape => tidy lossy shape v
      | none => v := by
  induction fields with
  | nil => rfl
  | cons e rest ih =>
    obtain ⟨key, v⟩ := e
    rw [tidyFields, List.lookup_cons, List.lookup_cons]
    by_cases same : name = key
    · subst same
      simp only [beq_self_eq_true, Option.map_some]
    · have other : (name == key) = false := by simpa using same
      simp only [other, ih]

theorem linkFree_of_mem {values : List Json} (free : valuesLinkFree values) (h : v ∈ values) :
    v.linkFree := by
  induction values with
  | nil => cases h
  | cons w rest ih =>
    rw [valuesLinkFree, Bool.and_eq_true] at free
    rcases List.mem_cons.mp h with rfl | h
    · exact free.1
    · exact ih free.2 h

theorem linkFree_of_mem_entries {entries : Entries Json} (free : entriesLinkFree entries)
    {e : String × Json} (h : e ∈ entries) : e.2.linkFree := by
  induction entries with
  | nil => cases h
  | cons x rest ih =>
    rw [entriesLinkFree, Bool.and_eq_true] at free
    rcases List.mem_cons.mp h with rfl | h
    · exact free.1
    · exact ih free.2 h

end Json

theorem Slot.linkFree {fields : Entries Json} {slot : Slot} {v : Json}
    (free : Json.entriesLinkFree fields) (found : slot.value? fields = some v) : v.linkFree := by
  have under {w : Json} (h : fields.lookup slot.keyword = some w) : w.linkFree :=
    Json.linkFree_of_mem_entries free (mem_of_lookup h)
  unfold Slot.value? at found
  split at found
  · rename_i lookup _
    cases found
    exact under lookup
  · rename_i lookup _
    exact Json.linkFree_of_mem (under lookup) (List.mem_of_getElem? found)
  · rename_i lookup _
    obtain ⟨e, he, rfl⟩ := Option.map_eq_some_iff.mp found
    have inner := under lookup
    rw [Json.linkFree, Bool.and_eq_true] at inner
    exact Json.linkFree_of_mem_entries inner.2 (List.mem_of_getElem? he)
  · cases found

namespace Node

/-- The fields of an export, of which those that are not set are left out. -/
def exported (ofNode : NodeId → Json) (n : Node) : Entries (Option Json) :=
  n.plainKeywords.map (fun e => (e.1, (some e.2).filter (!·.isNull))) ++ [
    ("const", n.const.filter (!·.isNull)),
    ("default", n.default.filter (!·.isNull)),
    ("additionalProperties", n.additionalProperties.map (·.toJson ofNode)),
    ("additionalItems", n.additionalItems.map (·.toJson ofNode)),
    ("allOf", n.allOf.map (listJson ofNode)),
    ("anyOf", n.anyOf.map (listJson ofNode)),
    ("oneOf", n.oneOf.map (listJson ofNode)),
    ("properties", n.properties.map (mapJson ofNode)),
    ("patternProperties", n.patternProperties.map (mapJson ofNode)),
    ("items", n.items.map (·.toJson ofNode)),
    ("extends", n.bases.map (·.toJson ofNode)),
    ("definitions", n.definitions.map (mapJson ofNode))]

theorem keywords_eq (ofNode : NodeId → Json) (n : Node) :
    n.keywords ofNode = (n.exported ofNode).present := by
  have entry_eq {α : Type} (name : String) (write : α → Json) (value : Option α) :
      entry name write value = Entries.present [(name, value.map write)] := by
    cases value <;> rfl
  have plain (es : Entries Json) : es.filter (!·.2.isNull) =
      Entries.present (es.map fun e => (e.1, (some e.2).filter (!·.isNull))) := by
    induction es with
    | nil => rfl
    | cons e es ih =>
      rw [List.map_cons, Entries.present_cons, ← ih]
      cases null : e.2.isNull <;> simp [null, Option.filter]
  have append (xs ys : Entries (Option Json)) :
      Entries.present (xs ++ ys) = Entries.present xs ++ Entries.present ys :=
    List.filterMap_append
  simp only [keywords, exported, plain, entry_eq, ← append, List.append_assoc, List.cons_append,
    List.nil_append]
  simp only [Option.map_id']

end Node
end LinkedSchema
