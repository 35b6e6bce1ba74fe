import LinkedSchema.Proofs.Schema.Faithful
import LinkedSchema.Proofs.Schema.Tidy
import Mathlib.Data.List.Perm.Subperm
/-! Export after ingestion. A document without links comes back tidy. -/
namespace LinkedSchema

open Json (Same tidy)

variable {d : Document} {made : NodeId → Place → Prop} {p : Place} {fields : Entries Json}
  {n : Node} {ofNode : NodeId → Json} {lossy : List String} {keyword : String} {v : Json}
  {holds : Slot → Subschema → Prop}

/-- What stands in the slots of an object is exported tidily. -/
def TidyBelow (lossy : List String) (fields : Entries Json) (ofNode : NodeId → Json)
    (holds : Slot → Subschema → Prop) : Prop :=
  ∀ slot v s, slot.value? fields = some v → holds slot s →
    Same (s.toJson ofNode) (tidy lossy .single v)

namespace TidyBelow

variable (below : TidyBelow lossy fields ofNode holds)
include below

theorem list {values : List Json} {members : List Subschema}
    (found : fields.lookup keyword = some (.arr values))
    (h : ReadsList holds keyword (.arr values) members) :
    Same (.arr (members.map (·.toJson ofNode))) (.arr (Json.tidyValues lossy values)) := by
  have length : (Slot.several keyword values.length).length = members.length := h.length_eq
  rw [Slot.several, List.length_map, List.length_range] at length
  rw [Json.tidyValues_eq, Json.same_arr_iff, List.forall₂_map_left_iff, List.forall₂_map_right_iff,
    List.forall₂_iff_get]
  refine ⟨length.symm, fun i hi hj => below ⟨keyword, some i⟩ _ _ ?_ ?_⟩
  · simp only [Slot.value?, found]
    exact List.getElem?_eq_getElem hj
  · have there := h.get (i := i) (by simpa [Slot.several] using hj) hi
    simpa [Slot.several] using there

/-- The entries of a map, one by one. -/
theorem pairs {values : Entries Json} {entries : Entries Subschema}
    (found : fields.lookup keyword = some (.obj values))
    (h : ReadsMap holds keyword (.obj values) entries) :
    List.Forall₂ (fun x y => x.1 = y.1 ∧ Same x.2 y.2)
      (entries.map fun e => (e.1, e.2.toJson ofNode)) (Json.tidyEntries lossy values) := by
  obtain ⟨names, h⟩ := h
  have length : entries.length = values.length := by
    simpa [Entries.names] using congrArg List.length names
  rw [Json.tidyEntries_eq, List.forall₂_map_left_iff, List.forall₂_map_right_iff,
    List.forall₂_iff_get]
  refine ⟨length, fun i hi hj => ⟨?_, below ⟨keyword, some i⟩ _ _ ?_ ?_⟩⟩
  · have here := congrArg (·[i]?) names
    simpa [Entries.names, hi, hj] using here
  · simp only [Slot.value?, found]
    rw [List.getElem?_eq_getElem hj]
    rfl
  · have there := h.get (i := i) (by simpa [Slot.several] using hj) (by simpa using hi)
    simpa [Slot.several] using there

theorem single {s : Subschema} (found : fields.lookup keyword = some v)
    (h : holds ⟨keyword, none⟩ s) : Same (s.toJson ofNode) (tidy lossy .single v) :=
  below ⟨keyword, none⟩ v s (by simp only [Slot.value?, found]) h

theorem members {members : List Subschema} (found : fields.lookup keyword = some v)
    (h : ReadsList holds keyword v members) :
    Same (Node.listJson ofNode members) (tidy lossy .list v) := by
  cases v with
  | arr values => exact below.list found h
  | _ => cases h

theorem entries {entries : Entries Subschema} (found : fields.lookup keyword = some v)
    (h : ReadsMap holds keyword v entries) :
    Same (Node.mapJson ofNode entries) (tidy lossy .map v) := by
  cases v with
  | obj values =>
    refine Json.same_obj_iff.mpr fun name => lookup_rel ((below.pairs found h).imp ?_)
    rintro x y ⟨names, same⟩
    exact ⟨by rw [names], same⟩
  | _ => cases h

theorem items {items : Items} (found : fields.lookup keyword = some v)
    (h : ReadsItems holds keyword v items) : Same (items.toJson ofNode) (tidy lossy .items v) := by
  cases items with
  | each s =>
    obtain ⟨single, h⟩ := h
    have same := below.single found h
    cases v with
    | arr => cases single
    | _ => exact same
  | positions members =>
    cases v with
    | arr values => exact below.list found h
    | _ => cases h

theorem bases {bases : Bases} (found : fields.lookup keyword = some v)
    (h : ReadsBases holds keyword v bases) : Same (bases.toJson ofNode) (tidy lossy .bases v) := by
  cases bases with
  | null =>
    cases h
    exact .null
  | one s =>
    obtain ⟨single, given, h⟩ := h
    have same := below.single found h
    cases v with
    | arr => cases single
    | null => exact absurd rfl given
    | _ => exact same
  | many members =>
    cases v with
    | arr values => exact below.list found h
    | _ => cases h

end TidyBelow

/-- A keyword is exported tidily if it is set at all. -/
theorem Document.Reads.exported {α : Type}
    {rel : (Slot → Subschema → Prop) → String → Json → α → Prop} {x : Option α} {shape : Container}
    {write : α → Json} (h : d.Reads made p fields keyword rel x)
    (called : schemaKeywords.lookup keyword = some shape)
    (each : ∀ {v a}, fields.lookup keyword = some v → rel (d.Holds made p fields) keyword v a →
      Same (write a) (tidy lossy shape v)) :
    Option.Rel Same (x.map write) ((Json.tidyFields lossy fields).lookup keyword) := by
  rw [Json.lookup_tidyFields, called]
  unfold Reads at h
  cases found : fields.lookup keyword with
  | none =>
    rw [found] at h
    cases h
    exact .none
  | some v =>
    rw [found] at h
    cases h with
    | some reads => exact .some (each found reads)

theorem Document.Reads.map {entries : Entries Subschema}
    (h : d.Reads made p fields keyword ReadsMap (some entries)) :
    ∃ values, fields.lookup keyword = some (.obj values) ∧
      ReadsMap (d.Holds made p fields) keyword (.obj values) entries := by
  unfold Reads at h
  cases found : fields.lookup keyword with
  | none =>
    rw [found] at h
    cases h
  | some v =>
    rw [found] at h
    cases h with
    | some reads =>
      cases v with
      | obj values => exact ⟨values, rfl, reads⟩
      | _ => cases reads

theorem rel_or {α β : Type} {rel : α → β → Prop} {x x' : Option α} {y y' : Option β}
    (first : Option.Rel rel x y) (rest : Option.Rel rel x' y') :
    Option.Rel rel (x.or x') (y.or y') := by
  cases first with
  | none => exact rest
  | some h => exact .some h

/-- The definitions under both keywords are exported as the merged ones. -/
theorem exported_definitions {older newer merged : Option (Entries Subschema)}
    (below : TidyBelow lossy fields ofNode (d.Holds made p fields))
    (reads : d.Reads made p fields "definitions" ReadsMap older)
    (reads' : d.Reads made p fields "$defs" ReadsMap newer) (merges : MergesTo older newer merged) :
    Option.Rel Same (merged.map (Node.mapJson ofNode))
      (Json.folded ((Json.tidyFields lossy fields).lookup "definitions")
        ((Json.tidyFields lossy fields).lookup "$defs")) := by
  have first : Option.Rel Same (older.map (Node.mapJson ofNode))
      ((Json.tidyFields lossy fields).lookup "definitions") := reads.exported rfl below.entries
  have last : Option.Rel Same (newer.map (Node.mapJson ofNode))
      ((Json.tidyFields lossy fields).lookup "$defs") := reads'.exported rfl below.entries
  match older, newer, merged, merges with
  | none, newer, _, rfl =>
    generalize (Json.tidyFields lossy fields).lookup "definitions" = x at first
    cases first
    exact last
  | some older, none, _, rfl =>
    generalize (Json.tidyFields lossy fields).lookup "$defs" = y at last
    generalize (Json.tidyFields lossy fields).lookup "definitions" = x at first
    cases last
    cases first with
    | @some _ w same => cases w <;> exact .some same
  | some older, some newer, some merged, ⟨_, lookups⟩ =>
    obtain ⟨olds, found, hold⟩ := reads.map
    obtain ⟨news, found', hnew⟩ := reads'.map
    rw [Json.lookup_tidyFields, Json.lookup_tidyFields, found, found']
    refine .some (Json.same_obj_iff.mpr fun name => ?_)
    have lookup_imp {xs ys : Entries Json}
        (h : List.Forall₂ (fun x y => x.1 = y.1 ∧ Same x.2 y.2) xs ys) :
        Option.Rel Same (xs.lookup name) (ys.lookup name) :=
      lookup_rel (h.imp fun x y same => ⟨by rw [same.1], same.2⟩)
    have older' := lookup_imp (below.pairs found hold)
    have newer' := lookup_imp (List.forall₂_reverse_iff.mpr (below.pairs found' hnew))
    rw [← List.map_reverse, Entries.lookup_map] at newer'
    rw [Entries.lookup_map] at older'
    rw [Entries.lookup_map, lookups name, Entries.lookup_merge, Option.map_or]
    exact rel_or newer' older'

/-- A value that is not a schema is exported unless it is null. -/
theorem exported_value {name : String} (named : name ∈ valueNames) :
    Option.Rel Same ((fields.lookup name).filter (!·.isNull))
      (((Json.tidyFields valueNames fields).lookup name).filter
        fun v => !(v.isNull && valueNames.contains name)) := by
  have plain : ∀ name ∈ valueNames, schemaKeywords.lookup name = none := by decide
  have listed : valueNames.contains name := List.contains_iff_mem.mpr named
  rw [Json.lookup_tidyFields, plain name named, listed]
  simp only [Bool.and_true, Option.map_id']
  cases Option.filter (!·.isNull) (fields.lookup name) with
  | none => exact .none
  | some v => exact .some (.refl v)

theorem same_of_mirrors (mirrors : d.Mirrors made p fields n)
    (below : TidyBelow valueNames fields ofNode (d.Holds made p fields)) :
    Same (.obj (n.keywords ofNode)) (tidy valueNames .single (.obj fields)) := by
  have names : (n.exported ofNode).names =
      (Json.known valueNames (Json.tidyFields valueNames fields)).names := rfl
  have once : (n.exported ofNode).names.Nodup := by
    simp [Node.exported, Node.plainKeywords, Entries.names]
  rw [n.keywords_eq]
  refine (Entries.same_present_iff names once).mpr ?_
  obtain ⟨older, newer, reads, reads', merges⟩ := mirrors.definitions
  have plain : List.Forall₂ (fun x y => Option.Rel Same x.2 y.2)
      (n.plainKeywords.map fun e => (e.1, (some e.2).filter (!·.isNull)))
      ((n.plainKeywords.map (·.1)).map fun name =>
        (name, ((Json.tidyFields valueNames fields).lookup name).filter
          fun v => !(v.isNull && valueNames.contains name))) := by
    rw [List.map_map, List.forall₂_map_left_iff, List.forall₂_map_right_iff, List.forall₂_same]
    intro e he
    have named : e.1 ∈ valueNames :=
      List.mem_append_left _ (List.mem_map.mpr ⟨e, he, rfl⟩ : e.1 ∈ n.plainKeywords.map (·.1))
    have value : (some e.2).filter (!·.isNull) = (fields.lookup e.1).filter (!·.isNull) := by
      rw [mirrors.plain e he]
      cases fields.lookup e.1 <;> rfl
    exact value ▸ exported_value named
  refine List.rel_append plain ?_
  rw [mirrors.const, mirrors.default]
  exact .cons (exported_value (by decide)) <| .cons (exported_value (by decide)) <|
    .cons (mirrors.additionalProperties.exported rfl below.single) <|
    .cons (mirrors.additionalItems.exported rfl below.single) <|
    .cons (mirrors.allOf.exported rfl below.members) <|
    .cons (mirrors.anyOf.exported rfl below.members) <|
    .cons (mirrors.oneOf.exported rfl below.members) <|
    .cons (mirrors.properties.exported rfl below.entries) <|
    .cons (mirrors.patternProperties.exported rfl below.entries) <|
    .cons (mirrors.items.exported rfl below.items) <|
    .cons (mirrors.bases.exported rfl below.bases) <|
    .cons (exported_definitions below reads reads' merges) .nil

/-- Different nodes are made of objects at different places. -/
theorem Made.place {base : Nat} {met : List Meeting} {i : NodeId} {q : Place}
    (h : Made base met i p) (h' : Made base met i q) : p = q := by
  obtain ⟨k, m, found, rfl, rfl⟩ := h
  obtain ⟨l, m', found', same, rfl⟩ := h'
  cases Nat.add_left_cancel same
  cases found.symm.trans found'
  rfl

namespace Document

/-- In a text without links an object in a slot stands for itself. -/
theorem stands_of_linkFree {here q : Place} (free : v.linkFree)
    (stands : d.stands? here v = some q) :
    ∃ entries, v = .obj entries ∧ q = here := by
  cases v with
  | obj entries =>
    rw [Json.linkFree, Bool.and_eq_true, Option.isNone_iff_eq_none] at free
    simp only [stands?, free.1, Option.some.injEq] at stands
    exact ⟨entries, rfl, stands.symm⟩
  | _ => cases stands

variable {g later : Graph} {root : NodeId} {start : Place} {met : List Meeting}

/-- Different nodes, all of objects further out than a place. -/
structure Outside (base : Nat) (met : List Meeting) (path : List NodeId) (p : Place) : Prop where
  further : ∀ j ∈ path, ∃ q, Made base met j q ∧ q.path.length < p.path.length
  once : path.Nodup

section

variable {base : Nat} {path : List NodeId} {i : NodeId}

theorem Outside.new (outside : Outside base met path p) (made : Made base met i p) : i ∉ path := by
  intro old
  obtain ⟨q, made', shorter⟩ := outside.further i old
  rw [made.place made'] at shorter
  exact Nat.lt_irrefl _ shorter

theorem Outside.cons (outside : Outside base met path p) (made : Made base met i p) (slot : Slot) :
    Outside base met (i :: path) (p.inner slot) where
  further j hj := by
    have further : p.path.length < (p.inner slot).path.length := by simp [Place.inner]
    rcases List.mem_cons.mp hj with rfl | hj
    · exact ⟨p, made, further⟩
    · obtain ⟨q, made', shorter⟩ := outside.further j hj
      exact ⟨q, made', Nat.lt_trans shorter further⟩
  once := List.nodup_cons.mpr ⟨outside.new made, outside.once⟩

/-- Such a path has room for the node of the object itself. -/
theorem Outside.length_lt (outside : Outside g.size met path p)
    (depicted : d.Depicted g later root start met) (made : Made g.size met i p) :
    path.length < later.size := by
  have room : (i :: path).length ≤ (List.range later.size).length := by
    refine (List.subperm_of_subset (outside.cons made ⟨"", none⟩).once fun j hj => ?_).length_le
    rw [List.mem_range]
    rcases List.mem_cons.mp hj with rfl | hj
    · exact depicted.lt_size made
    · obtain ⟨q, made', _⟩ := outside.further j hj
      exact depicted.lt_size made'
  rwa [List.length_cons, List.length_range] at room

end

/-- Below a path of nodes of objects further out, an object comes back tidy. The path holds each
node once, so the fuel does not run out. -/
theorem Depicted.same_exportBelow (depicted : d.Depicted g later root start met) :
    ∀ (weight : Nat) fields p i fuel path, (Json.obj fields).weight ≤ weight →
      (Json.obj fields).linkFree → d.fieldsAt p = some fields → Made g.size met i p →
      Outside g.size met path p → fuel + path.length = later.size →
      Same (later.exportBelow fuel path i) (tidy valueNames .single (.obj fields)) := by
  intro weight
  induction weight with
  | zero =>
    intro fields _ _ _ _ light
    exact absurd (Nat.lt_of_lt_of_le (Json.weight_pos _) light) (Nat.lt_irrefl 0)
  | succ weight ih =>
    intro fields p i fuel path light free here made outside size
    have room := outside.length_lt depicted made
    obtain ⟨fuel, rfl⟩ : ∃ more, fuel = more + 1 := Nat.exists_eq_add_one.mpr (by omega)
    have ⟨k, m, found, number, place⟩ := made
    subst number place
    obtain ⟨_, again, mirrors⟩ := depicted.mirrors k m found
    cases here.symm.trans again
    rw [Graph.exportBelow, if_neg (by simpa using outside.new made)]
    refine same_of_mirrors mirrors fun slot v s there holds => ?_
    have lighter := Slot.weight_lt there
    rw [Json.linkFree, Bool.and_eq_true] at free
    cases s with
    | bool b =>
      cases there.symm.trans holds
      exact .bool b
    | node j =>
      obtain ⟨q, leads, made'⟩ := holds
      simp only [leads?, here, Option.bind_some, there] at leads
      have free' := Slot.linkFree free.2 there
      obtain ⟨entries, rfl, rfl⟩ := stands_of_linkFree free' leads
      exact ih entries _ j fuel _ (by omega) free' (fieldsAt_inner here there) made'
        (outside.cons made slot) (by rw [List.length_cons]; omega)
    | bare => cases holds

/-- Ingestion and export of a document without links give it back, without what is unknown and
without nulls, except for a null that it extends. -/
theorem export_ingest (d : Document) (g : Graph) (free : d.root.linkFree) {root : NodeId}
    {later : Graph} (accepted : d.ingest g = .ok root later) :
    Same (later.toJson root) (tidy valueNames .single d.root) := by
  have ends := d.ingest_ends g
  rw [accepted] at ends
  obtain ⟨start, met, starts, depicted⟩ := ends
  obtain ⟨fields, text, rfl⟩ := stands_of_linkFree free starts
  rw [text] at free ⊢
  refine depicted.same_exportBelow _ fields ⟨none, []⟩ root later.size [] (Nat.le_refl _) free ?_
    ⟨0, _, depicted.search.head, depicted.first, rfl⟩ ⟨nofun, List.nodup_nil⟩ rfl
  simp [fieldsAt, textFields, text]

/-- A document with all that an export drops. -/
def cluttered : Document where
  root := .obj [("$defs", .obj [("a", .bool true)]), ("extends", .null), ("title", .null),
    ("definitions", .obj [("a", .obj [("default", .null), ("const", .int 0)]),
      ("b", .obj [("format", .str "uri"), ("items", .arr [])])])]

theorem export_cluttered : cluttered.root.linkFree ∧ ∃ root later,
    cluttered.ingest .empty = .ok root later ∧
      Same (later.toJson root) (.obj [("extends", .null),
        ("definitions", .obj [("a", .bool true), ("b", .obj [("items", .arr [])])])]) := by
  have free : cluttered.root.linkFree := by decide
  refine ⟨free, _, _, rfl, ?_⟩
  exact export_ingest cluttered .empty free rfl

/-- A constant that is null. -/
def nullConstant : Document where
  root := .obj [("const", .null)]

/-- An explicit null of a constant is lost, although it is a value. -/
theorem export_loses_null : nullConstant.root.linkFree ∧ ∃ root later,
    nullConstant.ingest .empty = .ok root later ∧
      tidy plainNames .single nullConstant.root = nullConstant.root ∧
      ¬ Same (later.toJson root) nullConstant.root := by
  refine ⟨by decide, _, _, rfl, rfl, fun same => ?_⟩
  have fields := Json.same_obj_iff.mp same "const"
  cases fields

end Document
end LinkedSchema
