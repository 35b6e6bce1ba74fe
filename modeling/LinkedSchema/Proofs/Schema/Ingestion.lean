import LinkedSchema.Proofs.Schema.Readers
/-! Ingestion keeps its contract: by induction on the fuel, which never runs out. Whatever is read
is lighter than what it is in, and what a link leads to was not read before. -/
namespace LinkedSchema

variable {d : Document} {base fuel : Nat} {met new : List Meeting} {s later : Intake}
  {source : Option Place} {here p q : Place} {v : Json} {fields : Entries Json}

namespace Json

theorem weight_pos (v : Json) : 0 < v.weight := by
  cases v <;> simp only [weight] <;> omega

theorem weight_le_itemsWeight {values : List Json} (h : v ∈ values) :
    v.weight ≤ itemsWeight values := by
  induction values with
  | nil => cases h
  | cons x values ih =>
    rcases List.mem_cons.mp h with rfl | h
    · exact Nat.le_add_right _ _
    · exact Nat.le_trans (ih h) (Nat.le_add_left _ _)

theorem weight_le_entriesWeight {entries : Entries Json} {e : String × Json} (h : e ∈ entries) :
    e.2.weight ≤ entriesWeight entries := by
  induction entries with
  | nil => cases h
  | cons x entries ih =>
    rcases List.mem_cons.mp h with rfl | h
    · exact Nat.le_add_right _ _
    · exact Nat.le_trans (ih h) (Nat.le_add_left _ _)

end Json

/-- What stands in a slot is lighter than the object. -/
theorem Slot.weight_lt {slot : Slot} (found : slot.value? fields = some v) :
    v.weight < (Json.obj fields).weight := by
  have under {w : Json} (h : fields.lookup slot.keyword = some w) :
      w.weight ≤ Json.entriesWeight fields := Json.weight_le_entriesWeight (mem_of_lookup h)
  have lighter : v.weight ≤ Json.entriesWeight fields := by
    unfold Slot.value? at found
    split at found
    · rename_i lookup _
      cases found
      exact under lookup
    · rename_i values k lookup _
      have inner := Json.weight_le_itemsWeight (List.mem_of_getElem? found)
      have outer := under lookup
      simp only [Json.weight] at outer
      omega
    · rename_i entries k lookup _
      obtain ⟨e, he, rfl⟩ := Option.map_eq_some_iff.mp found
      have inner := Json.weight_le_entriesWeight (List.mem_of_getElem? he)
      have outer := under lookup
      simp only [Json.weight] at outer
      omega
    · cases found
  simp only [Json.weight]
  omega

namespace Document

theorem unread_nil (d : Document) : d.unread [] = Json.entriesWeight d.parts := by
  rw [unread, List.filter_eq_self.mpr fun e _ => by simp [targets]]

/-- A part that is met is no longer to be read. -/
theorem unread_append_lt {name : String} (found : d.parts.lookup name = some v)
    (fresh : ⟨some name, []⟩ ∉ targets met) (read : ⟨some name, []⟩ ∈ targets new) :
    v.weight + d.unread (met ++ new) ≤ d.unread met := by
  refine Json.entriesWeight_filter_lt (unread_fewer met new) found ?_ (decide_eq_true fresh)
  rw [decide_eq_false_iff_not, not_not, targets_append]
  exact List.mem_append_right _ read

theorem lookup_of_target? {fuel : Nat} {name last : String}
    (found : d.target? fuel name = some (last, fields)) :
    d.parts.lookup last = some (.obj fields) := by
  induction fuel generalizing name with
  | zero => cases found
  | succ fuel ih =>
    unfold target? at found
    split at found
    · rename_i entries lookup
      split at found
      · exact ih found
      · cases found
        exact lookup
    · cases found

/-- A place whose object is to become a node, found under a name if a part is there. -/
structure Opens (met : List Meeting) (name : Option String) (q : Place) : Prop where
  untouched : Untouched met q
  named : ∀ n, q = ⟨some n, []⟩ ↔ name = some n
  opened : q.path = [] ∨ ⟨q.origin, []⟩ ∈ targets met

variable {name : Option String} {parent : Option NodeId}
  {object : Option NodeId → Json → Ingestion NodeId}

theorem IsNext.opens (next : IsNext met q) : Opens met none q where
  untouched := next.untouched
  named n := by
    refine ⟨?_, nofun⟩
    rintro rfl
    rcases next.opened with same | ⟨inner, _⟩
    · cases same
    · exact absurd rfl inner
  opened := next.opened.imp (fun same => by rw [same]) And.right

theorem Opens.part {n : String} (knows : s.Knows base met)
    (unknown : s.linked.lookup n = none) : Opens met (some n) ⟨some n, []⟩ where
  untouched m hm within := by
    have whole := knows.origins m hm
    rw [← within.1] at whole
    exact knows.unknown n unknown whole
  named k := by simp
  opened := .inl rfl

theorem Opens.fresh (opens : Opens met name q) : q ∉ targets met := by
  intro old
  obtain ⟨m, hm, rfl⟩ := List.mem_map.mp old
  exact opens.untouched m hm .refl

theorem Opens.reserved (opens : Opens met name q) (knows : s.Knows base met) :
    Intake.Knows base (met ++ [⟨source, q⟩])
      ⟨s.graph.push { parent }, (name.map (·, s.graph.size)).toList ++ s.linked⟩ where
  size := by
    rw [Graph.size_push, knows.size, List.length_append]
    rfl
  known n i found := by
    cases name with
    | none => exact (knows.known n i found).mono
    | some k =>
      simp only [Option.map_some, Option.toList_some, List.singleton_append,
        List.lookup_cons] at found
      split at found
      · rename_i same
        cases found
        cases eq_of_beq same
        exact ⟨met.length, ⟨source, q⟩, by simp, knows.size, (opens.named n).mpr rfl⟩
      · exact (knows.known n i found).mono
  unknown n missing read := by
    rw [targets_append] at read
    cases name with
    | none =>
      rcases List.mem_append.mp read with old | here
      · exact knows.unknown n missing old
      · cases (opens.named n).mp (List.mem_singleton.mp here).symm
    | some k =>
      simp only [Option.map_some, Option.toList_some, List.singleton_append,
        List.lookup_cons] at missing
      split at missing
      · cases missing
      · rename_i other
        rcases List.mem_append.mp read with old | here
        · exact knows.unknown n missing old
        · cases (opens.named n).mp (List.mem_singleton.mp here).symm
          simp at other
  origins m hm := by
    rw [targets_append]
    rcases List.mem_append.mp hm with hm | hm
    · exact List.mem_append_left _ (knows.origins m hm)
    · cases List.mem_singleton.mp hm
      rcases opens.opened with whole | old
      · obtain ⟨origin, path⟩ := q
        cases whole
        exact List.mem_append_right _ List.mem_cons_self
      · exact List.mem_append_left _ old

variable (parent) in
/-- What can be read in the slots of an object once its node is reserved. -/
theorem Opens.ready (opens : Opens met name q) (knows : s.Knows base met)
    (found : d.fieldsAt q = some fields)
    (budget : (Json.obj fields).weight + d.unread (met ++ [⟨source, q⟩]) ≤ fuel + 1) :
    Reading.Ready ⟨d, base, fuel, q, fields, s.graph.size, found⟩ (slotsOf fields)
      (met ++ [⟨source, q⟩])
      ⟨s.graph.push { parent }, (name.map (·, s.graph.size)).toList ++ s.linked⟩ where
  knows := opens.reserved knows
  made := ⟨met.length, ⟨source, q⟩, by simp, knows.size, rfl⟩
  listed _ h := h
  untouched slot _ m hm within := by
    rcases List.mem_append.mp hm with hm | hm
    · exact opens.untouched m hm ((q.within_inner slot).trans within)
    · cases List.mem_singleton.mp hm
      have longer := within.2.length_le
      simp only [Place.inner, List.length_append, List.length_singleton] at longer
      omega
  budget slot _ v there := by
    have lighter : v.weight < (Json.obj fields).weight := Slot.weight_lt there
    change v.weight + d.unread _ ≤ fuel
    omega

section

variable {n : Node} (below : d.Progress base (d.meetingsIn q (slotsOf fields))
  ((slotsOf fields).map q.inner) (met ++ [⟨source, q⟩])
  ⟨s.graph.push { parent }, (name.map (·, s.graph.size)).toList ++ s.linked⟩ new later)

include below

theorem Opens.search (opens : Opens met name q) (found : d.fieldsAt q = some fields) :
    DepthFirst d.meetings Meeting.target met.reverse [⟨source, q⟩] (⟨source, q⟩ :: new) := by
  have search := below.search
  rw [List.reverse_append, List.reverse_singleton, List.singleton_append] at search
  have whole : d.meetings q = d.meetingsIn q (slotsOf fields) := by
    rw [meetings, slotsAt, found, Option.map_some, Option.getD_some]
  have fresh : q ∉ met.reverse.map Meeting.target := by
    rw [List.map_reverse, List.mem_reverse]
    exact opens.fresh
  have entered : DepthFirst d.meetings Meeting.target met.reverse [⟨source, q⟩]
      (⟨source, q⟩ :: new ++ []) := .enter fresh (whole ▸ search) .done
  rwa [List.append_nil] at entered

/-- The node that was reserved is complete with the others, once it is put in its place. -/
theorem finished_of_below (size : s.graph.size = base + met.length)
    (isParent : ParentIs base met n.parent source) (found : d.fieldsAt q = some fields)
    (mirrors : d.Mirrors (Made base (met ++ ⟨source, q⟩ :: new)) q fields n) (k : Nat) (m : Meeting)
    (listed : (⟨source, q⟩ :: new)[k]? = some m) :
    d.Finished base (met ++ ⟨source, q⟩ :: new) m
      ((later.graph.set s.graph.size n).node (base + met.length + k)) := by
  cases k with
  | zero =>
    cases listed
    have inside : s.graph.size < later.graph.size := by
      rw [below.knows.size, size]
      simp only [List.length_append, List.length_singleton]
      omega
    rw [Nat.add_zero, ← size, Graph.node_set_self inside]
    exact ⟨isParent.mono, fields, found, mirrors⟩
  | succ k =>
    have there := below.finished k m (by simpa using listed)
    rw [List.length_append, List.length_singleton, List.append_assoc,
      List.singleton_append] at there
    have other : s.graph.size ≠ base + met.length + (k + 1) := by omega
    rw [Graph.node_set_ne other]
    rwa [show base + met.length + (k + 1) = base + (met.length + 1) + k by omega]

theorem nearby_of_below (near : here = q ∨ ⟨q.origin, []⟩ ∉ targets met) {m : Meeting}
    (listed : m ∈ (⟨source, q⟩ :: new : List Meeting)) :
    (∃ r ∈ [here], r.Within m.target) ∨ ⟨m.target.origin, []⟩ ∉ targets met := by
  have widen (within : q.Within m.target) :
      (∃ r ∈ [here], r.Within m.target) ∨ ⟨m.target.origin, []⟩ ∉ targets met := by
    rw [← within.1]
    refine near.imp_left ?_
    rintro rfl
    exact ⟨_, List.mem_cons_self, within⟩
  rcases List.mem_cons.mp listed with rfl | listed
  · exact widen .refl
  · rcases below.nearby m listed with ⟨r, hr, within⟩ | unmet
    · obtain ⟨slot, _, rfl⟩ := List.mem_map.mp hr
      exact widen ((q.within_inner slot).trans within)
    · refine .inr fun old => unmet ?_
      rw [targets_append]
      exact List.mem_append_left _ old

/-- The search below an object, with the step that led to it. The node is put in its place when
all that is below is made. -/
theorem Opens.progress (opens : Opens met name q)
    (near : here = q ∨ ⟨q.origin, []⟩ ∉ targets met) (knows : s.Knows base met)
    (isParent : ParentIs base met n.parent source) (found : d.fieldsAt q = some fields)
    (mirrors : d.Mirrors (Made base (met ++ [⟨source, q⟩] ++ new)) q fields n) :
    d.Progress base [⟨source, q⟩] [here] met s (⟨source, q⟩ :: new)
      { later with graph := later.graph.set s.graph.size n } := by
  have met' : met ++ [⟨source, q⟩] ++ new = met ++ ⟨source, q⟩ :: new := by
    rw [List.append_assoc, List.singleton_append]
  rw [met'] at mirrors
  have knows' := met' ▸ below.knows
  exact {
    search := opens.search below found
    knows := ⟨(Graph.size_set _ _ _).trans knows'.size, knows'.known, knows'.unknown,
      knows'.origins⟩
    kept := fun i old => by
      have kept := below.kept i (by rw [Graph.size_push]; omega)
      have other : s.graph.size ≠ i := by omega
      rw [Graph.node_set_ne other, kept, Graph.node_push_of_lt old]
    finished := finished_of_below below knows.size isParent found mirrors
    nearby := fun m listed => nearby_of_below below near listed }

end

/-- A node is made for an object at a place that opens. -/
theorem Opens.ends (opens : Opens met name q) (ingests : d.Ingests base fuel object)
    (near : here = q ∨ ⟨q.origin, []⟩ ∉ targets met) (knows : s.Knows base met)
    (isParent : ParentIs base met parent source) (found : d.fieldsAt q = some fields)
    (stands : d.stands? here v = some q)
    (budget : (Json.obj fields).weight + d.unread (met ++ [⟨source, q⟩]) ≤ fuel + 1) :
    Ingestion.Ends s
      (do
        let i ← Ingestion.reserve parent name
        Ingestion.finish i (← Ingestion.node (object (some i)) parent fields)
        return i)
      (d.Ingested base met s source here v)
      (fun e => e ≠ .depth ∧ ∀ q, d.stands? here v = some q → d.Broken q) := by
  have ready := opens.ready parent knows found budget
  have covers := Reading.covers_node (c := ⟨d, base, fuel, q, fields, s.graph.size, found⟩)
    ingests parent _ _ ready
  change Ingestion.Ends _ (Ingestion.node (object (some s.graph.size)) parent fields >>= fun n =>
    Ingestion.finish s.graph.size n >>= fun _ => pure s.graph.size) _ _
  refine .bind (covers.imp (fun _ _ h => h) ?_) ?_
  · rintro e ⟨fuelled, broken⟩
    refine ⟨fuelled, fun r same => ?_⟩
    cases stands.symm.trans same
    exact broken
  · rintro n later ⟨new, below, mirrors, rfl⟩
    change d.Ingested base met s source here v s.graph.size _
    refine ⟨q, ⟨source, q⟩ :: new, stands, ⟨met.length, ⟨source, q⟩, by simp, knows.size, rfl⟩, ?_⟩
    exact opens.progress below near knows isParent found mirrors

theorem ingests_object (d : Document) (base : Nat) :
    ∀ fuel, d.Ingests base fuel (Ingestion.object d fuel) := by
  intro fuel
  induction fuel with
  | zero =>
    intro _ _ _ v _ _ _ _ _ _ budget
    have := v.weight_pos
    omega
  | succ fuel ih =>
    intro parent source here v s met knows isParent next inner budget
    have refused (e : Refusal) (fuelled : e ≠ .depth) (none : d.stands? here v = none) :
        e ≠ .depth ∧ ∀ q, d.stands? here v = some q → d.Broken q :=
      ⟨fuelled, fun q stands => by rw [none] at stands; cases stands⟩
    unfold Ingestion.object
    cases link : v.link? with
    | some name =>
      have stands : d.stands? here v =
          (d.target? (d.parts.length + 1) name).map fun found => ⟨some found.1, []⟩ := by
        simp only [stands?, link]
      simp only
      cases target : d.target? (d.parts.length + 1) name with
      | none =>
        rw [target] at stands
        exact Ingestion.ends_throw (refused (.link name) Refusal.noConfusion stands)
      | some part =>
        obtain ⟨last, fields⟩ := part
        rw [target] at stands
        have lookup := lookup_of_target? target
        refine Ingestion.ends_get ?_
        cases known : s.linked.lookup last with
        | some i =>
          have made := knows.known last i known
          have old : (⟨some last, []⟩ : Place) ∈ met.reverse.map Meeting.target := by
            rw [List.map_reverse, List.mem_reverse]
            exact made.mem
          refine Ingestion.ends_pure ⟨⟨some last, []⟩, [], stands, ?_, ?_⟩
          · rwa [List.append_nil]
          · exact { Progress.refl knows with search := .known old .done }
        | none =>
          have opens := Opens.part knows known
          refine opens.ends ih (.inr opens.fresh) knows isParent ?_ stands ?_
          · simp only [fieldsAt, List.foldl_nil, textFields, lookup]
          · have read : ⟨some last, []⟩ ∈ targets [⟨source, ⟨some last, []⟩⟩] := List.mem_cons_self
            have least := unread_append_lt lookup opens.fresh read
            omega
    | none =>
      cases v with
      | obj entries =>
        have stands : d.stands? here (.obj entries) = some here := by simp only [stands?, link]
        refine next.opens.ends ih (.inl rfl) knows isParent (inner entries link rfl) stands ?_
        have least := d.unread_append_le met [⟨source, here⟩]
        omega
      | null | bool _ | int _ | float _ | str _ | arr _ =>
        exact Ingestion.ends_throw (refused _ Refusal.noConfusion rfl)

end Document
end LinkedSchema
