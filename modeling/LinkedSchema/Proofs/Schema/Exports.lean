import LinkedSchema.Proofs.Schema.Faithful
import LinkedSchema.Proofs.Schema.Tidy
import LinkedSchema.Schema.Definitions
/-! The keywords of an export. Every slot has a child of the exported node, and a node that mirrors
an export is exported alike. -/
namespace LinkedSchema

variable {n : Node} {ofNode f : NodeId → Json} {d : Document} {made : NodeId → Place → Prop}
  {p : Place} {slot : Slot} {s : Subschema} {fields : Entries Json} {keyword : String} {v : Json}
  {holds : Slot → Subschema → Prop}

namespace Node

theorem exported_nodup : (n.exported ofNode).names.Nodup := by
  simp [exported, plainKeywords, Entries.names]

theorem lookup_keywords (name : String) :
    (n.keywords ofNode).lookup name = ((n.exported ofNode).lookup name).join := by
  rw [keywords_eq, Entries.lookup_present exported_nodup]

/-- A plain keyword that is missing in an export is null. -/
theorem lookup_plain {e : String × Json} (listed : e ∈ n.plainKeywords) :
    e.2 = ((n.keywords ofNode).lookup e.1).getD .null := by
  have written : (n.exported ofNode).lookup e.1 = some ((some e.2).filter (!·.isNull)) :=
    lookup_eq_of_mem exported_nodup (List.mem_append_left _ (List.mem_map_of_mem listed))
  rw [lookup_keywords, written, Option.join_some]
  cases e.2 <;> rfl

/-- A child that is written into a slot of an export. -/
def Writes (n : Node) (ofNode : NodeId → Json) (slot : Slot) (s : Subschema) : Prop :=
  s ∈ n.children ∧ slot.value? (n.keywords ofNode) = some (s.toJson ofNode)

section

variable {members : List Subschema} {entries : Entries Subschema}

theorem writes_list (found : (n.keywords ofNode).lookup keyword = some (listJson ofNode members))
    (among : members ⊆ n.children) :
    ReadsList (n.Writes ofNode) keyword (listJson ofNode members) members := by
  refine List.forall₂_iff_get.mpr ⟨by simp [Slot.several], fun k hk hm => ⟨?_, ?_⟩⟩
  · exact among (List.get_mem _ _)
  · have inside : k < members.length := hm
    simp [Slot.several, Slot.value?, found, listJson, inside]

theorem writes_map (found : (n.keywords ofNode).lookup keyword = some (mapJson ofNode entries))
    (among : entries.map (·.2) ⊆ n.children) :
    ReadsMap (n.Writes ofNode) keyword (mapJson ofNode entries) entries := by
  refine ⟨by simp [Entries.names], List.forall₂_iff_get.mpr ⟨by simp [Slot.several], ?_⟩⟩
  intro k hk hm
  refine ⟨among (List.get_mem _ _), ?_⟩
  have inside : k < entries.length := by simpa using hm
  simp [Slot.several, Slot.value?, found, mapJson, inside]

theorem writes_single (found : (n.keywords ofNode).lookup keyword = some (s.toJson ofNode))
    (child : s ∈ n.children) : n.Writes ofNode ⟨keyword, none⟩ s :=
  ⟨child, by simp [Slot.value?, found]⟩

/-- Booleans and objects only. -/
def Solid (n : Node) (ofNode : NodeId → Json) : Prop :=
  ∀ s ∈ n.children, (s.toJson ofNode).isArr = false ∧ s.toJson ofNode ≠ .null

theorem writes_items {items : Items} (solid : n.Solid ofNode)
    (found : (n.keywords ofNode).lookup keyword = some (items.toJson ofNode))
    (among : items.toList ⊆ n.children) :
    ReadsItems (n.Writes ofNode) keyword (items.toJson ofNode) items := by
  cases items with
  | each s =>
    have child : s ∈ n.children := among (List.mem_singleton_self s)
    exact ⟨(solid s child).1, writes_single found child⟩
  | positions members => exact writes_list found among

theorem writes_bases {bases : Bases} (solid : n.Solid ofNode)
    (found : (n.keywords ofNode).lookup keyword = some (bases.toJson ofNode))
    (among : bases.toList ⊆ n.children) :
    ReadsBases (n.Writes ofNode) keyword (bases.toJson ofNode) bases := by
  cases bases with
  | null => rfl
  | one s =>
    have child : s ∈ n.children := among (List.mem_singleton_self s)
    exact ⟨(solid s child).1, (solid s child).2, writes_single found child⟩
  | many members => exact writes_list found among

end

/-- A keyword of an export is one that the node has set. -/
theorem set_of_lookup {α : Type} {write : α → Json} {x : Option α}
    (written : (n.exported ofNode).lookup keyword = some (x.map write))
    (found : (n.keywords ofNode).lookup keyword = some v) : ∃ a, x = some a ∧ write a = v := by
  rw [lookup_keywords, written] at found
  exact Option.map_eq_some_iff.mp found

/-- The keywords of an export have the containers that they call for, with children in all
slots. -/
theorem filled_keywords (solid : n.Solid ofNode) {e : String × Container}
    (called : e ∈ schemaKeywords) (found : (n.keywords ofNode).lookup e.1 = some v) :
    Filled (n.Writes ofNode) e.1 e.2 v := by
  simp only [schemaKeywords, List.mem_cons, List.not_mem_nil, or_false] at called
  rcases called with rfl | rfl | rfl | rfl | rfl | rfl | rfl | rfl | rfl | rfl | rfl
  · obtain ⟨s, hs, rfl⟩ := set_of_lookup rfl found
    exact ReadsSingle.filled (writes_single found (by simp [children, hs]))
  · obtain ⟨s, hs, rfl⟩ := set_of_lookup rfl found
    exact ReadsSingle.filled (writes_single found (by simp [children, hs]))
  · obtain ⟨x, hx, rfl⟩ := set_of_lookup rfl found
    exact ReadsList.filled (writes_list found fun s hs => by simp [children, hx, hs])
  · obtain ⟨x, hx, rfl⟩ := set_of_lookup rfl found
    exact ReadsList.filled (writes_list found fun s hs => by simp [children, hx, hs])
  · obtain ⟨x, hx, rfl⟩ := set_of_lookup rfl found
    exact ReadsList.filled (writes_list found fun s hs => by simp [children, hx, hs])
  · obtain ⟨x, hx, rfl⟩ := set_of_lookup rfl found
    refine ReadsMap.filled (writes_map found fun s hs => ?_)
    simp only [children, hx, Option.getD_some, List.mem_append, hs, true_or]
  · obtain ⟨x, hx, rfl⟩ := set_of_lookup rfl found
    refine ReadsMap.filled (writes_map found fun s hs => ?_)
    simp only [children, hx, Option.getD_some, List.mem_append, hs, true_or, or_true]
  · obtain ⟨x, hx, rfl⟩ := set_of_lookup rfl found
    exact ReadsItems.filled (writes_items solid found fun s hs => by simp [children, hx, hs])
  · obtain ⟨x, hx, rfl⟩ := set_of_lookup rfl found
    exact ReadsBases.filled (writes_bases solid found fun s hs => by simp [children, hx, hs])
  · obtain ⟨x, hx, rfl⟩ := set_of_lookup rfl found
    refine ReadsMap.filled (writes_map found fun s hs => ?_)
    simp only [children, hx, Option.getD_some, List.mem_append, hs, true_or, or_true]
  · rw [lookup_keywords] at found
    cases found

/-- In every slot of an export a child is written. -/
theorem writes_slot (solid : n.Solid ofNode) (listed : slot ∈ slotsOf (n.keywords ofNode)) :
    ∃ s, n.Writes ofNode slot s := by
  obtain ⟨e, called, under⟩ := List.mem_flatMap.mp listed
  unfold slotsUnder at under
  split at under
  · rename_i v found
    exact (filled_keywords solid called found).2 slot under
  · cases under

end Node

/-- What is read from slots is written as it stands there. -/
def Restores (fields : Entries Json) (f : NodeId → Json) (holds : Slot → Subschema → Prop)
    (slots : List Slot) : Prop :=
  ∀ slot ∈ slots, ∀ s, holds slot s → slot.value? fields = some (s.toJson f)

theorem ReadsSingle.restored (found : fields.lookup keyword = some v)
    (h : ReadsSingle holds keyword v s)
    (below : Restores fields f holds (Container.single.slots keyword v)) : s.toJson f = v := by
  have same := below ⟨keyword, none⟩ List.mem_cons_self s h
  simpa [Slot.value?, found] using same.symm

theorem ReadsList.restored {members : List Subschema} (found : fields.lookup keyword = some v)
    (h : ReadsList holds keyword v members)
    (below : Restores fields f holds (Container.list.slots keyword v)) :
    Node.listJson f members = v := by
  cases v with
  | arr values =>
    obtain ⟨length, h⟩ := List.forall₂_iff_get.mp h
    have length : values.length = members.length := by simpa [Slot.several] using length
    refine congrArg Json.arr (List.ext_getElem (by simpa using length.symm) fun k hk hv => ?_)
    have same := below ⟨keyword, some k⟩ (by simpa [Container.slots, Slot.several] using hv)
      members[k] (by simpa [Slot.several] using h k (by simpa [Slot.several]) (length ▸ hv))
    simpa [Slot.value?, found, hv] using same.symm
  | _ => cases h

theorem ReadsMap.restored {entries : Entries Subschema} (found : fields.lookup keyword = some v)
    (h : ReadsMap holds keyword v entries)
    (below : Restores fields f holds (Container.map.slots keyword v)) :
    Node.mapJson f entries = v := by
  cases v with
  | obj values =>
    obtain ⟨names, h⟩ := h
    obtain ⟨_, h⟩ := List.forall₂_iff_get.mp h
    have length : values.length = entries.length := by
      simpa [Entries.names] using (congrArg List.length names).symm
    refine congrArg Json.obj (List.ext_getElem (by simpa using length.symm) fun k hk hv => ?_)
    have inside : k < entries.length := length ▸ hv
    have name : entries[k].1 = values[k].1 := by
      have here := congrArg (·[k]?) names
      simpa [Entries.names, hv, inside] using here
    have same := below ⟨keyword, some k⟩ (by simpa [Container.slots, Slot.several] using hv)
      entries[k].2 (by simpa [Slot.several] using h k (by simpa [Slot.several]) (by simpa))
    have value : values[k].2 = entries[k].2.toJson f := by
      simpa [Slot.value?, found, hv] using same
    simp [name, ← value]
  | _ => cases h

theorem ReadsItems.restored {items : Items} (found : fields.lookup keyword = some v)
    (h : ReadsItems holds keyword v items)
    (below : Restores fields f holds (Container.items.slots keyword v)) : items.toJson f = v := by
  cases items with
  | each s =>
    obtain ⟨single, h⟩ := h
    refine ReadsSingle.restored found h ?_
    cases v with
    | arr => cases single
    | _ => exact below
  | positions members =>
    cases v with
    | arr values => exact ReadsList.restored found h below
    | _ => cases h

theorem ReadsBases.restored {bases : Bases} (found : fields.lookup keyword = some v)
    (h : ReadsBases holds keyword v bases)
    (below : Restores fields f holds (Container.bases.slots keyword v)) : bases.toJson f = v := by
  cases bases with
  | null => exact h.symm
  | one s =>
    obtain ⟨single, given, h⟩ := h
    refine ReadsSingle.restored found h ?_
    cases v with
    | arr => cases single
    | null => exact absurd rfl given
    | _ => exact below
  | many members =>
    cases v with
    | arr values => exact ReadsList.restored found h below
    | _ => cases h

/-- What is read of a keyword is written as it stands under it. -/
theorem Document.Reads.restored {α : Type}
    {rel : (Slot → Subschema → Prop) → String → Json → α → Prop} {x : Option α} {write : α → Json}
    {shape : Container} (h : d.Reads made p fields keyword rel x)
    (called : schemaKeywords.lookup keyword = some shape)
    (below : Restores fields f (d.Holds made p fields) (slotsOf fields))
    (each : ∀ {v a}, fields.lookup keyword = some v → rel (d.Holds made p fields) keyword v a →
      Restores fields f (d.Holds made p fields) (shape.slots keyword v) → write a = v) :
    x.map write = fields.lookup keyword := by
  unfold Reads at h
  cases found : fields.lookup keyword with
  | none =>
    rw [found] at h
    cases h
    rfl
  | some v =>
    rw [found] at h
    cases h with
    | some reads =>
      refine congrArg some (each found reads fun slot listed => below slot ?_)
      refine List.mem_flatMap.mpr ⟨_, mem_of_lookup called, ?_⟩
      unfold slotsUnder
      rw [found]
      exact listed

/-- Objects with the values that a node has for its plain keywords are told by them. -/
theorem Node.plainKeywords_eq (h : ∀ e ∈ n.plainKeywords, e.2 = (fields.lookup e.1).getD .null) :
    n.plainKeywords = plainNames.map fun name => (name, (fields.lookup name).getD .null) := by
  simp only [plainKeywords, List.forall_mem_cons] at h
  simp [plainKeywords, plainNames, h]

/-- A node that mirrors an export is exported alike. -/
theorem Document.Mirrors.exported_eq {m : Node} (h : d.Mirrors made p (n.keywords ofNode) m)
    (below : Restores (n.keywords ofNode) f (d.Holds made p (n.keywords ofNode))
      (slotsOf (n.keywords ofNode))) : m.exported f = n.exported ofNode := by
  have lookups (name : String) : (n.keywords ofNode).lookup name =
      ((n.exported ofNode).lookup name).join := Node.lookup_keywords name
  have plain : m.plainKeywords = n.plainKeywords := by
    rw [Node.plainKeywords_eq h.plain, Node.plainKeywords_eq fun e => Node.lookup_plain]
  have given {x : Option Json} : (x.filter (!·.isNull)).filter (!·.isNull) =
      x.filter (!·.isNull) := by simp [Option.filter_filter]
  have constant : m.const.filter (!·.isNull) = n.const.filter (!·.isNull) := by
    rw [h.const, lookups]
    exact given
  have default : m.default.filter (!·.isNull) = n.default.filter (!·.isNull) := by
    rw [h.default, lookups]
    exact given
  have additionalProperties := h.additionalProperties.restored rfl below ReadsSingle.restored
  have additionalItems := h.additionalItems.restored rfl below ReadsSingle.restored
  have allOf := h.allOf.restored rfl below ReadsList.restored
  have anyOf := h.anyOf.restored rfl below ReadsList.restored
  have oneOf := h.oneOf.restored rfl below ReadsList.restored
  have properties := h.properties.restored rfl below ReadsMap.restored
  have patternProperties := h.patternProperties.restored rfl below ReadsMap.restored
  have items := h.items.restored rfl below ReadsItems.restored
  have bases := h.bases.restored rfl below ReadsBases.restored
  have definitions : m.definitions.map (Node.mapJson f) =
      (n.keywords ofNode).lookup "definitions" := by
    obtain ⟨older, newer, reads, reads', merges⟩ := h.definitions
    have none : newer = none := by
      unfold Reads at reads'
      rw [lookups] at reads'
      cases reads'
      rfl
    subst none
    have same : m.definitions = older := by
      cases older with
      | none => exact merges
      | some older => exact merges
    rw [same]
    exact reads.restored rfl below ReadsMap.restored
  rw [Node.exported, plain, constant, default, additionalProperties, additionalItems, allOf, anyOf,
    oneOf, properties, patternProperties, items, bases, definitions]
  simp only [lookups]
  rfl

end LinkedSchema
