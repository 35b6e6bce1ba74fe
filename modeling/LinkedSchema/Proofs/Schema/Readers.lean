import LinkedSchema.Proofs.Entries
import LinkedSchema.Proofs.Schema.Reading
import Mathlib.Data.List.Nodup
/-! The readers of keywords, each with the slots that it covers, up to the one of a whole object. -/
namespace LinkedSchema.Reading

variable {α β : Type} {c : Reading} {object : Option NodeId → Json → Ingestion NodeId}
  {slots : List Slot} {fields : Entries Json} {keyword : String} {v : Json}

theorem Covers.imp {step : Ingestion α} {good better : (NodeId → Place → Prop) → α → Prop}
    (h : c.Covers slots step good) (more : ∀ made x, good made x → better made x) :
    c.Covers slots step better := by
  intro met s ready
  refine (h met s ready).imp ?_ fun _ h => h
  rintro x later ⟨new, progress, holds⟩
  exact ⟨new, progress, more _ x holds⟩

/-- What a step that covers some slots returned may be changed afterwards. -/
theorem Covers.map {step : Ingestion α} {good : (NodeId → Place → Prop) → α → Prop}
    {better : (NodeId → Place → Prop) → β → Prop} {f : α → β} (h : c.Covers slots step good)
    (more : ∀ made x, good made x → better made (f x)) :
    c.Covers slots (step >>= fun x => pure (f x)) better := by
  intro met s ready
  apply (h met s ready).bind
  rintro x later ⟨new, progress, holds⟩
  exact Ingestion.ends_pure ⟨new, progress, more _ x holds⟩

/-- What is read in one slot is what the value there stands for. -/
theorem meetingsIn_slot {slot : Slot} (found : slot.value? c.fields = some v) :
    c.doc.meetingsIn c.place [slot] =
      ((c.doc.stands? (c.place.inner slot) v).map (⟨some c.place, ·⟩)).toList := by
  have leads : c.doc.leads? c.place slot = c.doc.stands? (c.place.inner slot) v := by
    simp only [Document.leads?, c.found, Option.bind_some, found]
  rw [← leads]
  cases next : c.doc.leads? c.place slot <;> simp [Document.meetingsIn, next]

/-- What is broken below a slot is so below the object. -/
theorem broken_of_slot {slot : Slot} (listed : slot ∈ slotsOf c.fields)
    (found : slot.value? c.fields = some v) (object : v.isBool = false)
    (broken : ∀ q, c.doc.stands? (c.place.inner slot) v = some q → c.doc.Broken q) :
    c.doc.Broken c.place := by
  by_cases sound : c.doc.Sound c.place
  · have schema := (sound c.fields c.found).2 slot listed v found
    obtain ⟨q, stands⟩ := Option.isSome_iff_exists.mp (schema.resolve_left (by simp [object]))
    obtain ⟨r, reached, unsound⟩ := broken q stands
    refine ⟨r, .head ⟨slot, ?_, ?_⟩ reached, unsound⟩
    · simpa only [Document.slotsAt, c.found, Option.map_some, Option.getD_some] using listed
    · simpa only [Document.leads?, c.found, Option.bind_some, found] using stands
  · exact ⟨c.place, .refl, sound⟩

theorem covers_subschema (ingests : c.doc.Ingests c.base c.fuel object) {slot : Slot}
    (found : slot.value? c.fields = some v) :
    c.Covers [slot] (Ingestion.subschema (object (some c.node)) keyword v)
      fun made s => c.doc.Holds made c.place c.fields slot s := by
  intro met s ready
  have listed := ready.listed slot List.mem_cons_self
  have here := meetingsIn_slot found
  have refused (e : Refusal) (fuelled : e ≠ .depth)
      (other : ¬ c.doc.IsSchema (c.place.inner slot) v) :
      e ≠ .depth ∧ c.doc.Broken c.place :=
    ⟨fuelled, c.place, .refl, unsound_of_slot listed found other⟩
  cases v with
  | bool b =>
    refine Ingestion.ends_pure ⟨[], ?_, found⟩
    rw [here]
    exact .refl ready.knows
  | obj entries =>
    have next : Document.IsNext met (c.place.inner slot) :=
      ⟨ready.untouched slot List.mem_cons_self, .inr ⟨by simp [Place.inner], ready.opened⟩⟩
    refine .bind (.imp (ingests (some c.node) (some c.place) (c.place.inner slot) (.obj entries)
      s met ready.knows ⟨c.node, rfl, ready.made⟩ next ?_
      (ready.budget slot List.mem_cons_self _ found)) (fun _ _ h => h) ?_) ?_
    · rintro _ - ⟨⟩
      exact Document.fieldsAt_inner c.found found
    · exact fun e h => ⟨h.1, broken_of_slot listed found rfl h.2⟩
    · rintro i mid ⟨q, new, stands, made, progress⟩
      have leads : c.doc.leads? c.place slot = some q := by
        simpa only [Document.leads?, c.found, Option.bind_some, found] using stands
      refine Ingestion.ends_pure ⟨new, ?_, q, leads, made⟩
      rw [here, stands]
      exact progress
  | null | int _ | float _ | str _ | arr _ =>
    refine Ingestion.ends_throw (refused _ Refusal.noConfusion ?_)
    rintro (bool | stands)
    · exact Bool.noConfusion bool
    · exact Bool.noConfusion stands

/-- Slots read one by one. -/
theorem covers_mapM (read : β → Ingestion α) (rel : (NodeId → Place → Prop) → Slot → β → α → Prop)
    (mono : ∀ made wider slot x a, (∀ i q, made i q → wider i q) → rel made slot x a →
      rel wider slot x a)
    (pairs : List (Slot × β)) (once : (pairs.map (·.1)).Nodup)
    (each : ∀ e ∈ pairs, c.Covers [e.1] (read e.2) fun made a => rel made e.1 e.2 a) :
    c.Covers (pairs.map (·.1)) ((pairs.map (·.2)).mapM read)
      fun made => List.Forall₂ (fun e a => rel made e.1 e.2 a) pairs := by
  induction pairs with
  | nil => exact covers_pure fun _ => .nil
  | cons e pairs ih =>
    obtain ⟨fresh, once⟩ := List.nodup_cons.mp once
    have rest := ih once fun e he => each e (List.mem_cons_of_mem _ he)
    simp only [List.map_cons, List.mapM_cons]
    refine Covers.bind (each e List.mem_cons_self) (fun made wider a more => mono _ _ _ _ _ more)
      (fun a => rest.map fun made as reads first => .cons first reads) ?_
    intro slot hs same
    cases List.mem_singleton.mp same
    exact fresh hs

theorem map_fst_zip_several (keyword : String) (values : List β) :
    ((Slot.several keyword values.length).zip values).map (·.1) =
      Slot.several keyword values.length :=
  List.map_fst_zip (by simp [Slot.several])

theorem map_snd_zip_several (keyword : String) (values : List β) :
    ((Slot.several keyword values.length).zip values).map (·.2) = values :=
  List.map_snd_zip (by simp [Slot.several])

/-- The slots of several values under one keyword. -/
theorem covers_several (keyword : String) (read : β → Ingestion α)
    (rel : (NodeId → Place → Prop) → Slot → β → α → Prop)
    (mono : ∀ made wider slot x a, (∀ i q, made i q → wider i q) → rel made slot x a →
      rel wider slot x a)
    (values : List β)
    (each : ∀ (k : Nat) x, values[k]? = some x →
      c.Covers [⟨keyword, some k⟩] (read x) fun made => rel made ⟨keyword, some k⟩ x) :
    c.Covers (Slot.several keyword values.length) (values.mapM read)
      fun made => List.Forall₂ (fun e a => rel made e.1 e.2 a)
        ((Slot.several keyword values.length).zip values) := by
  have once : (Slot.several keyword values.length).Nodup :=
    List.Nodup.map (fun i j same => by simpa using same) List.nodup_range
  have whole := covers_mapM (c := c) read rel mono
    ((Slot.several keyword values.length).zip values)
  rw [map_fst_zip_several, map_snd_zip_several] at whole
  refine whole once fun e he => ?_
  obtain ⟨k, hk, rfl⟩ := List.getElem_of_mem he
  have inside : k < values.length := by
    rw [List.length_zip] at hk
    omega
  have there := each k values[k] (List.getElem?_eq_getElem inside)
  simpa only [List.getElem_zip, Slot.several, List.getElem_map, List.getElem_range] using there

theorem covers_elements (ingests : c.doc.Ingests c.base c.fuel object) {values : List Json}
    (found : c.fields.lookup keyword = some (.arr values)) :
    c.Covers (Slot.several keyword values.length)
      (values.mapM (Ingestion.subschema (object (some c.node)) keyword))
      fun made => List.Forall₂ (c.doc.Holds made c.place c.fields)
        (Slot.several keyword values.length) := by
  have whole := covers_several (c := c) keyword
    (Ingestion.subschema (object (some c.node)) keyword)
    (fun made slot _ s => c.doc.Holds made c.place c.fields slot s)
    (fun _ _ slot _ s more => Document.Holds.imp more slot s) values
    fun k x there => covers_subschema ingests (by simpa only [Slot.value?, found] using there)
  refine whole.imp fun made members reads => ?_
  rwa [← List.forall₂_map_left_iff (f := Prod.fst), map_fst_zip_several] at reads

theorem covers_members (ingests : c.doc.Ingests c.base c.fuel object)
    (called : (keyword, Container.list) ∈ schemaKeywords)
    (found : c.fields.lookup keyword = some v) :
    c.Covers (Container.list.slots keyword v) (Ingestion.members (object (some c.node)) keyword v)
      fun made => ReadsList (c.doc.Holds made c.place c.fields) keyword v := by
  cases v with
  | arr values => exact covers_elements ingests found
  | _ => exact covers_throw Refusal.noConfusion (unsound_of_unfit called found Bool.noConfusion)

theorem covers_entries (ingests : c.doc.Ingests c.base c.fuel object)
    (called : (keyword, Container.map) ∈ schemaKeywords)
    (found : c.fields.lookup keyword = some v) :
    c.Covers (Container.map.slots keyword v) (Ingestion.entries (object (some c.node)) keyword v)
      fun made => ReadsMap (c.doc.Holds made c.place c.fields) keyword v := by
  cases v with
  | obj values =>
    have whole := covers_several (c := c) keyword
      (fun e : String × Json => do
        return (e.1, ← Ingestion.subschema (object (some c.node)) keyword e.2))
      (fun made slot e (s : String × Subschema) =>
        s.1 = e.1 ∧ c.doc.Holds made c.place c.fields slot s.2)
      (fun _ _ slot _ s more h => ⟨h.1, h.2.imp more slot s.2⟩) values
      fun k e there => (covers_subschema ingests
        (by simp only [Slot.value?, found, there, Option.map_some])).map
        fun made s holds => ⟨rfl, holds⟩
    refine whole.imp fun made entries reads => ⟨?_, ?_⟩
    · have names : List.Forall₂ (· = ·) (Entries.names entries) (Entries.names values) := by
        rw [Entries.names, Entries.names, ← map_snd_zip_several keyword values, List.map_map,
          List.forall₂_map_left_iff, List.forall₂_map_right_iff]
        exact (reads.imp fun e s h => h.1).flip
      simpa only [List.forall₂_eq_eq_eq] using names
    · rw [← map_fst_zip_several keyword values, List.forall₂_map_left_iff,
        List.forall₂_map_right_iff]
      exact reads.imp fun e s h => h.2
  | _ => exact covers_throw Refusal.noConfusion (unsound_of_unfit called found Bool.noConfusion)

theorem covers_items (ingests : c.doc.Ingests c.base c.fuel object)
    (found : c.fields.lookup "items" = some v) :
    c.Covers (Container.items.slots "items" v) (Ingestion.items (object (some c.node)) v)
      fun made => ReadsItems (c.doc.Holds made c.place c.fields) "items" v := by
  cases v with
  | arr values => exact (covers_elements ingests found).map fun made members reads => reads
  | null | bool _ | int _ | float _ | str _ | obj _ =>
    refine (covers_subschema ingests ?_).map fun made s holds => ⟨rfl, holds⟩
    simp only [Slot.value?, found]

theorem covers_bases (ingests : c.doc.Ingests c.base c.fuel object)
    (found : c.fields.lookup "extends" = some v) :
    c.Covers (Container.bases.slots "extends" v) (Ingestion.bases (object (some c.node)) v)
      fun made => ReadsBases (c.doc.Holds made c.place c.fields) "extends" v := by
  cases v with
  | null => exact covers_pure fun made => rfl
  | arr values => exact (covers_elements ingests found).map fun made members reads => reads
  | bool _ | int _ | float _ | str _ | obj _ =>
    refine (covers_subschema ingests ?_).map fun made s holds => ⟨rfl, nofun, holds⟩
    simp only [Slot.value?, found]

theorem covers_optional {e : String × Container}
    {rel : (Slot → Subschema → Prop) → String → Json → α → Prop}
    {read : String → Json → Ingestion α}
    (reads : ∀ v, c.fields.lookup e.1 = some v → c.Covers (e.2.slots e.1 v) (read e.1 v)
      fun made => rel (c.doc.Holds made c.place c.fields) e.1 v) :
    c.Covers (slotsUnder c.fields e) (Ingestion.optional c.fields e.1 read)
      fun made => c.doc.Reads made c.place c.fields e.1 rel := by
  unfold slotsUnder Ingestion.optional Document.Reads
  cases found : c.fields.lookup e.1 with
  | none => exact covers_pure fun made => .none
  | some v => exact (reads v found).map fun made x holds => .some holds

theorem keyword_of_mem_slotsUnder {e : String × Container} {slot : Slot}
    (h : slot ∈ slotsUnder fields e) : slot.keyword = e.1 := by
  have several (count : Nat) (h : slot ∈ Slot.several e.1 count) : slot.keyword = e.1 := by
    obtain ⟨k, _, rfl⟩ := List.mem_map.mp h
    rfl
  unfold slotsUnder at h
  split at h
  · unfold Container.slots at h
    split at h
    all_goals first
      | exact several _ h
      | simpa [h] using congrArg Slot.keyword (List.mem_singleton.mp h)
      | cases h
  · cases h

/-- The reading of one keyword and then of the others. -/
theorem Covers.cons {e : String × Container} {es : List (String × Container)}
    {rel : (Slot → Subschema → Prop) → String → Json → α → Prop}
    {read : String → Json → Ingestion α} {next : Option α → Ingestion β}
    {good : (NodeId → Place → Prop) → β → Prop}
    (reads : ∀ v, c.fields.lookup e.1 = some v → c.Covers (e.2.slots e.1 v) (read e.1 v)
      fun made => rel (c.doc.Holds made c.place c.fields) e.1 v)
    (mono : ∀ holds wider, (∀ slot s, holds slot s → wider slot s) →
      ∀ v x, rel holds e.1 v x → rel wider e.1 v x)
    (fresh : e.1 ∉ es.map (·.1))
    (then_ : ∀ x, c.Covers (es.flatMap (slotsUnder c.fields)) (next x)
      fun made y => c.doc.Reads made c.place c.fields e.1 rel x → good made y) :
    c.Covers ((e :: es).flatMap (slotsUnder c.fields))
      (Ingestion.optional c.fields e.1 read >>= next) good := by
  rw [List.flatMap_cons]
  refine (covers_optional reads).bind ?_ then_ ?_
  · intro made wider x more h
    exact h.imp fun v a => mono _ _ (Document.Holds.imp more) v a
  · intro slot hs same
    obtain ⟨f, hf, under⟩ := List.mem_flatMap.mp hs
    refine fresh (List.mem_map.mpr ⟨f, hf, ?_⟩)
    rw [← keyword_of_mem_slotsUnder under, keyword_of_mem_slotsUnder same]

theorem mergesTo_mergeDefinitions (older newer : Option (Entries Subschema)) :
    MergesTo older newer (Ingestion.mergeDefinitions older newer) := by
  cases older with
  | none => rfl
  | some older =>
    cases newer with
    | none => rfl
    | some newer => exact ⟨fun e => Entries.mem_merge, fun name => Entries.lookup_merge⟩

/-- The whole object is read, and the node made of it mirrors it. -/
theorem covers_node (ingests : c.doc.Ingests c.base c.fuel object) (parent : Option NodeId) :
    c.Covers (slotsOf c.fields) (Ingestion.node (object (some c.node)) parent c.fields)
      fun made n => c.doc.Mirrors made c.place c.fields n ∧ n.parent = parent := by
  have single {keyword : String} (v : Json) (found : c.fields.lookup keyword = some v) :
      c.Covers (Container.single.slots keyword v)
        (Ingestion.subschema (object (some c.node)) keyword v)
        fun made => ReadsSingle (c.doc.Holds made c.place c.fields) keyword v :=
    covers_subschema ingests (by simp only [Slot.value?, found])
  have list {keyword : String} (called : (keyword, Container.list) ∈ schemaKeywords) (v : Json) :=
    covers_members ingests called (v := v)
  have map {keyword : String} (called : (keyword, Container.map) ∈ schemaKeywords) (v : Json) :=
    covers_entries ingests called (v := v)
  have holdsSingle (keyword : String) (holds wider : Slot → Subschema → Prop)
      (more : ∀ slot s, holds slot s → wider slot s) (v : Json) (s : Subschema)
      (h : ReadsSingle holds keyword v s) : ReadsSingle wider keyword v s := more _ s h
  refine .cons single (holdsSingle _) (by decide) fun additionalProperties => ?_
  refine .cons single (holdsSingle _) (by decide) fun additionalItems => ?_
  refine .cons (list (by decide)) (fun _ _ more _ _ => .imp more) (by decide) fun allOf => ?_
  refine .cons (list (by decide)) (fun _ _ more _ _ => .imp more) (by decide) fun anyOf => ?_
  refine .cons (list (by decide)) (fun _ _ more _ _ => .imp more) (by decide) fun oneOf => ?_
  refine .cons (map (by decide)) (fun _ _ more _ _ => .imp more) (by decide)
    fun properties => ?_
  refine .cons (map (by decide)) (fun _ _ more _ _ => .imp more) (by decide)
    fun patternProperties => ?_
  refine .cons (fun v => covers_items ingests) (fun _ _ more _ _ => .imp more) (by decide)
    fun items => ?_
  refine .cons (fun v => covers_bases ingests) (fun _ _ more _ _ => .imp more) (by decide)
    fun bases => ?_
  refine .cons (map (by decide)) (fun _ _ more _ _ => .imp more) (by decide)
    fun definitions => ?_
  refine .cons (map (by decide)) (fun _ _ more _ _ => .imp more) (by decide) fun defs => ?_
  refine covers_pure ?_
  intro made hDefs hDefinitions hBases hItems hPatterns hProperties hOneOf hAnyOf hAllOf
    hAdditionalItems hAdditionalProperties
  refine ⟨?_, rfl⟩
  exact {
    plain := by
      intro e he
      simp only [Node.plainKeywords, List.mem_cons, List.not_mem_nil, or_false] at he
      rcases he with rfl | rfl | rfl | rfl | rfl | rfl | rfl | rfl | rfl | rfl | rfl | rfl | rfl
      all_goals rfl
    const := rfl
    default := rfl
    additionalProperties := hAdditionalProperties
    additionalItems := hAdditionalItems
    allOf := hAllOf
    anyOf := hAnyOf
    oneOf := hOneOf
    properties := hProperties
    patternProperties := hPatterns
    items := hItems
    bases := hBases
    definitions := ⟨definitions, defs, hDefinitions, hDefs, mergesTo_mergeDefinitions _ _⟩ }

end LinkedSchema.Reading
