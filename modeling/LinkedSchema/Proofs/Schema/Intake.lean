import LinkedSchema.Proofs.Schema.Places
/-! Steps of an ingestion. What a step has read of a document is told by the meetings that it adds:
each of them made one node, and the nodes made before are as they were. -/
namespace LinkedSchema

variable {α β : Type} {d : Document} {base : Nat} {met new more : List Meeting}
  {s mid later : Intake} {p q : Place}

namespace Ingestion

/-- From this state, the step ends in a good result and state, or in a bad refusal. -/
def Ends (s : Intake) (step : Ingestion α) (good : α → Intake → Prop) (bad : Refusal → Prop) :
    Prop :=
  match step.run s with
  | .ok (a, later) => good a later
  | .error e => bad e

variable {good better : α → Intake → Prop} {bad worse : Refusal → Prop}

theorem ends_pure {a : α} (holds : good a s) : Ends s (pure a) good bad := holds

theorem ends_throw {e : Refusal} (holds : bad e) : Ends s (throw e) good bad := holds

theorem Ends.imp {step : Ingestion α} (h : Ends s step good bad)
    (results : ∀ a later, good a later → better a later) (refusals : ∀ e, bad e → worse e) :
    Ends s step better worse := by
  unfold Ends at h ⊢
  split
  · rename_i a later run
    rw [run] at h
    exact results a later h
  · rename_i e run
    rw [run] at h
    exact refusals e h

theorem Ends.bind {step : Ingestion α} {next : α → Ingestion β} {last : β → Intake → Prop}
    (first : Ends s step good bad)
    (rest : ∀ a mid, good a mid → Ends mid (next a) last bad) :
    Ends s (step >>= next) last bad := by
  unfold Ends at first ⊢
  rw [StateT.run_bind]
  cases run : step.run s with
  | error e =>
    rw [run] at first
    exact first
  | ok made =>
    rw [run] at first
    exact rest made.1 made.2 first

theorem ends_get {next : Intake → Ingestion β} {last : β → Intake → Prop}
    (rest : Ends s (next s) last bad) : Ends s (get >>= next) last bad := rest

end Ingestion

/-- The first place is the second one, or that of an object around it. -/
def Place.Within (p q : Place) : Prop := p.origin = q.origin ∧ p.path <+: q.path

/-- The node that a meeting made. -/
def Made (base : Nat) (met : List Meeting) (i : NodeId) (p : Place) : Prop :=
  ∃ k m, met[k]? = some m ∧ i = base + k ∧ m.target = p

/-- The places met. -/
def targets (met : List Meeting) : List Place := met.map (·.target)

/-- The parent that a node gets when it is met. -/
def ParentIs (base : Nat) (met : List Meeting) (parent : Option NodeId) : Option Place → Prop
  | none => parent = none
  | some p => ∃ i, parent = some i ∧ Made base met i p

/-- A node that is what its meeting calls for. -/
structure Document.Finished (d : Document) (base : Nat) (met : List Meeting) (m : Meeting)
    (n : Node) : Prop where
  parent : ParentIs base met n.parent m.source
  mirrors : ∃ fields, d.fieldsAt m.target = some fields ∧
    d.Mirrors (Made base met) m.target fields n

/-- A state after some meetings: each made a node, links are known just if their parts were met,
and with a place its whole text was met. -/
structure Intake.Knows (base : Nat) (met : List Meeting) (s : Intake) : Prop where
  size : s.graph.size = base + met.length
  known : ∀ name i, s.linked.lookup name = some i → Made base met i ⟨some name, []⟩
  unknown : ∀ name, s.linked.lookup name = none → ⟨some name, []⟩ ∉ targets met
  origins : ∀ m ∈ met, ⟨m.target.origin, []⟩ ∈ targets met

/-- What was done between two states: the search for what is pending. It comes across places within
those near by, and across parts that were not met before. -/
structure Document.Progress (d : Document) (base : Nat) (pending : List Meeting)
    (near : List Place) (met : List Meeting) (s : Intake) (new : List Meeting) (later : Intake) :
    Prop where
  search : DepthFirst d.meetings Meeting.target met.reverse pending new
  knows : later.Knows base (met ++ new)
  kept : ∀ i < s.graph.size, later.graph.node i = s.graph.node i
  finished : ∀ k m, new[k]? = some m →
    d.Finished base (met ++ new) m (later.graph.node (base + met.length + k))
  nearby : ∀ m ∈ new, (∃ q ∈ near, q.Within m.target) ∨ ⟨m.target.origin, []⟩ ∉ targets met

theorem Made.mono {i : NodeId} (h : Made base met i p) : Made base (met ++ more) i p := by
  obtain ⟨k, m, found, same, target⟩ := h
  refine ⟨k, m, ?_, same, target⟩
  rw [List.getElem?_append_left (List.getElem?_eq_some_iff.mp found).1, found]

theorem Made.mem {i : NodeId} (h : Made base met i p) : p ∈ targets met := by
  obtain ⟨k, m, found, _, rfl⟩ := h
  exact List.mem_map.mpr ⟨m, List.mem_of_getElem? found, rfl⟩

theorem ParentIs.mono {parent : Option NodeId} {source : Option Place}
    (h : ParentIs base met parent source) : ParentIs base (met ++ more) parent source := by
  cases source with
  | none => exact h
  | some p =>
    obtain ⟨i, same, made⟩ := h
    exact ⟨i, same, made.mono⟩

theorem targets_append : targets (met ++ new) = targets met ++ targets new := List.map_append

namespace Document

theorem meetingsIn_append {ks ls : List Slot} :
    d.meetingsIn p (ks ++ ls) = d.meetingsIn p ks ++ d.meetingsIn p ls := List.filterMap_append

theorem Finished.mono {m : Meeting} {n : Node} (h : d.Finished base met m n) :
    d.Finished base (met ++ more) m n where
  parent := h.parent.mono
  mirrors := by
    obtain ⟨fields, found, mirrors⟩ := h.mirrors
    exact ⟨fields, found, mirrors.imp fun _ _ => Made.mono⟩

namespace Progress

variable {pending pending' : List Meeting} {near near' : List Place}

theorem refl (knows : s.Knows base met) : d.Progress base [] near met s [] s where
  search := .done
  knows := by rwa [List.append_nil]
  kept _ _ := rfl
  finished _ _ found := by cases found
  nearby := nofun

theorem trans (size : s.graph.size = base + met.length)
    (first : d.Progress base pending near met s new mid)
    (next : d.Progress base pending' near' (met ++ new) mid more later) :
    d.Progress base (pending ++ pending') (near ++ near') met s (new ++ more) later where
  search := by
    refine first.search.append ?_
    rw [← List.reverse_append]
    exact next.search
  knows := by
    rw [← List.append_assoc]
    exact next.knows
  kept i inside := by
    have grown : s.graph.size ≤ mid.graph.size := by
      rw [size, first.knows.size, List.length_append]
      omega
    rw [next.kept i (Nat.lt_of_lt_of_le inside grown), first.kept i inside]
  finished k m found := by
    rw [← List.append_assoc]
    rcases Nat.lt_or_ge k new.length with old | beyond
    · rw [List.getElem?_append_left old] at found
      have there : base + met.length + k < mid.graph.size := by
        rw [first.knows.size, List.length_append]
        omega
      rw [next.kept _ there]
      exact (first.finished k m found).mono
    · rw [List.getElem?_append_right beyond] at found
      have there := next.finished _ m found
      rwa [List.length_append, show base + (met.length + new.length) + (k - new.length) =
        base + met.length + k by omega] at there
  nearby m hm := by
    rcases List.mem_append.mp hm with hm | hm
    · refine (first.nearby m hm).imp_left ?_
      rintro ⟨q, hq, within⟩
      exact ⟨q, List.mem_append_left _ hq, within⟩
    · refine (next.nearby m hm).imp ?_ fun unmet old => unmet ?_
      · rintro ⟨q, hq, within⟩
        exact ⟨q, List.mem_append_right _ hq, within⟩
      · rw [targets_append]
        exact List.mem_append_left _ old

end Progress

/-- Nothing is met yet within a place. -/
def Untouched (met : List Meeting) (q : Place) : Prop := ∀ m ∈ met, ¬ q.Within m.target

/-- A place to be read next: the root, or one within a text of which the whole was met. -/
structure IsNext (met : List Meeting) (q : Place) : Prop where
  untouched : Untouched met q
  opened : q = ⟨none, []⟩ ∨ q.path ≠ [] ∧ ⟨q.origin, []⟩ ∈ targets met

end Document

theorem Place.Within.refl : p.Within p := ⟨rfl, List.prefix_refl _⟩

theorem Place.Within.trans {r : Place} (outer : p.Within q) (inner : q.Within r) : p.Within r :=
  ⟨outer.1.trans inner.1, outer.2.trans inner.2⟩

theorem Place.within_inner (p : Place) (slot : Slot) : p.Within (p.inner slot) :=
  ⟨rfl, List.prefix_append _ _⟩

/-- What is within two slots of an object is within one and the same. -/
theorem Place.slot_unique {k l : Slot} (first : (p.inner k).Within q)
    (next : (p.inner l).Within q) : k = l := by
  have same : p.path ++ [k] = p.path ++ [l] :=
    List.IsPrefix.eq_of_length (List.prefix_of_prefix_length_le first.2 next.2 (by simp))
      (by simp)
  simpa using same

/-- What was met in some slots of an object leaves its other slots untouched. -/
theorem Document.Progress.untouched {pending : List Meeting} {ks : List Slot} {l : Slot}
    (progress : d.Progress base pending (ks.map p.inner) met s new later)
    (here : ⟨p.origin, []⟩ ∈ targets met) (other : l ∉ ks)
    (untouched : Document.Untouched met (p.inner l)) :
    Document.Untouched (met ++ new) (p.inner l) := by
  intro m hm within
  rcases List.mem_append.mp hm with hm | hm
  · exact untouched m hm within
  · rcases progress.nearby m hm with ⟨q, hq, near⟩ | unmet
    · obtain ⟨k, hk, rfl⟩ := List.mem_map.mp hq
      exact other (Place.slot_unique within near ▸ hk)
    · rw [← within.1] at unmet
      exact unmet here

end LinkedSchema
