import LinkedSchema.Proofs.Schema.Intake
/-! Reading an object, keyword by keyword and slot by slot. The way to ingest the objects in the
slots is given; a reading adds the meetings in its slots, in order, and what it returns leads to
the nodes of what was met. -/
namespace LinkedSchema

variable {α β γ : Type} {d : Document} {met new : List Meeting} {s mid later : Intake}

namespace Json

variable {p q : String × Json → Bool} {entries : Entries Json} {v : Json}

theorem entriesWeight_filter_le (fewer : ∀ e, p e = true → q e = true) (entries : Entries Json) :
    entriesWeight (entries.filter p) ≤ entriesWeight (entries.filter q) := by
  induction entries with
  | nil => exact Nat.le_refl _
  | cons e rest ih =>
    obtain ⟨name, v⟩ := e
    rw [List.filter_cons, List.filter_cons]
    split
    · rename_i left
      rw [if_pos (fewer _ left)]
      exact Nat.add_le_add_left ih _
    · split
      · exact Nat.le_trans ih (Nat.le_add_left _ _)
      · exact ih

/-- Without one more of the entries, at least its weight is gone. -/
theorem entriesWeight_filter_lt (fewer : ∀ e, p e = true → q e = true) {name : String}
    (found : entries.lookup name = some v) (gone : p (name, v) = false)
    (there : q (name, v) = true) :
    v.weight + entriesWeight (entries.filter p) ≤ entriesWeight (entries.filter q) := by
  induction entries with
  | nil => cases found
  | cons e rest ih =>
    obtain ⟨other, w⟩ := e
    rw [List.lookup_cons] at found
    split at found
    · rename_i same
      cases found
      cases eq_of_beq same
      rw [List.filter_cons, List.filter_cons, if_pos there, gone]
      exact Nat.add_le_add_left (entriesWeight_filter_le fewer rest) _
    · have least := ih found
      rw [List.filter_cons, List.filter_cons]
      split
      · rename_i left
        rw [if_pos (fewer _ left)]
        simp only [entriesWeight]
        omega
      · split
        · exact Nat.le_trans least (Nat.le_add_left _ _)
        · exact least

end Json

namespace Document

/-- An object that is not sound can be reached. -/
def Broken (d : Document) (p : Place) : Prop := ∃ q, d.Reaches p q ∧ ¬ d.Sound q

/-- The weight of the parts that were not met. -/
def unread (d : Document) (met : List Meeting) : Nat :=
  Json.entriesWeight (d.parts.filter fun e => ⟨some e.1, []⟩ ∉ targets met)

theorem unread_fewer (met new : List Meeting) (e : String × Json)
    (unmet : decide (⟨some e.1, []⟩ ∉ targets (met ++ new)) = true) :
    decide (⟨some e.1, []⟩ ∉ targets met) = true := by
  rw [decide_eq_true_iff, targets_append, List.mem_append, not_or] at unmet
  exact decide_eq_true unmet.1

theorem unread_append_le (d : Document) (met new : List Meeting) :
    d.unread (met ++ new) ≤ d.unread met :=
  Json.entriesWeight_filter_le (unread_fewer met new) d.parts

/-- The ingestion of a value led to the node of the object that it stands for. -/
def Ingested (d : Document) (base : Nat) (met : List Meeting) (s : Intake) (source : Option Place)
    (here : Place) (v : Json) (i : NodeId) (later : Intake) : Prop :=
  ∃ q new, d.stands? here v = some q ∧ Made base (met ++ new) i q ∧
    d.Progress base [⟨source, q⟩] [here] met s new later

/-- Ingestion of objects as it should be, given as much fuel as all there is to read weighs: it
finds or makes the node that a value stands for, and refuses only what leads to something unsound. -/
def Ingests (d : Document) (base fuel : Nat)
    (object : Option NodeId → Json → Ingestion NodeId) : Prop :=
  ∀ parent source here v s met, s.Knows base met → ParentIs base met parent source →
    IsNext met here →
    (∀ entries, v.link? = none → v = .obj entries → d.fieldsAt here = some entries) →
    v.weight + d.unread met ≤ fuel →
    Ingestion.Ends s (object parent v)
      (d.Ingested base met s source here v)
      (fun e => e ≠ .depth ∧ ∀ q, d.stands? here v = some q → d.Broken q)

end Document

/-- The reading of one object: its place and fields, and the node that is made of it. -/
structure Reading where
  doc : Document
  base : Nat
  fuel : Nat
  place : Place
  fields : Entries Json
  node : NodeId
  found : doc.fieldsAt place = some fields

namespace Reading

variable (c : Reading)

/-- A state in which some slots can be read. -/
structure Ready (slots : List Slot) (met : List Meeting) (s : Intake) : Prop where
  knows : s.Knows c.base met
  made : Made c.base met c.node c.place
  listed : ∀ slot ∈ slots, slot ∈ slotsOf c.fields
  untouched : ∀ slot ∈ slots, Document.Untouched met (c.place.inner slot)
  budget : ∀ slot ∈ slots, ∀ v, slot.value? c.fields = some v →
    v.weight + c.doc.unread met ≤ c.fuel

/-- A step that reads some slots. What it returns is as it should be, given which nodes are made of
what by then. -/
def Covers (slots : List Slot) (step : Ingestion α)
    (good : (NodeId → Place → Prop) → α → Prop) : Prop :=
  ∀ met s, c.Ready slots met s →
    Ingestion.Ends s step
      (fun x later => ∃ new, c.doc.Progress c.base (c.doc.meetingsIn c.place slots)
          (slots.map c.place.inner) met s new later ∧ good (Made c.base (met ++ new)) x)
      (fun e => e ≠ .depth ∧ c.doc.Broken c.place)

variable {c} {slots rest : List Slot}

/-- The whole text that the object is in was met. -/
theorem Ready.opened (ready : c.Ready slots met s) : ⟨c.place.origin, []⟩ ∈ targets met := by
  obtain ⟨m, hm, here⟩ := List.mem_map.mp ready.made.mem
  rw [← here]
  exact ready.knows.origins m hm

/-- Slots that are read later can still be read then. -/
theorem Ready.onward (ready : c.Ready (slots ++ rest) met s)
    (progress : c.doc.Progress c.base (c.doc.meetingsIn c.place slots)
      (slots.map c.place.inner) met s new mid) (apart : ∀ slot ∈ rest, slot ∉ slots) :
    c.Ready rest (met ++ new) mid where
  knows := progress.knows
  made := ready.made.mono
  listed slot hs := ready.listed slot (List.mem_append_right _ hs)
  untouched slot hs := progress.untouched ready.opened (apart slot hs)
    (ready.untouched slot (List.mem_append_right _ hs))
  budget slot hs v found :=
    Nat.le_trans (Nat.add_le_add_left (c.doc.unread_append_le met new) _)
      (ready.budget slot (List.mem_append_right _ hs) v found)

theorem covers_pure {good : (NodeId → Place → Prop) → α → Prop} {x : α}
    (holds : ∀ made, good made x) : c.Covers [] (pure x) good := fun _ _ ready =>
  Ingestion.ends_pure ⟨[], .refl ready.knows, holds _⟩

theorem covers_throw {good : (NodeId → Place → Prop) → α → Prop} {e : Refusal}
    (fuelled : e ≠ .depth) (unsound : ¬ c.doc.Sound c.place) :
    c.Covers slots (throw e) good := fun _ _ _ =>
  Ingestion.ends_throw ⟨fuelled, c.place, .refl, unsound⟩

/-- A step and what comes after it. What the step returned still holds when more nodes are made. -/
theorem Covers.bind {step : Ingestion α} {next : α → Ingestion β}
    {mid : (NodeId → Place → Prop) → α → Prop} {good : (NodeId → Place → Prop) → β → Prop}
    (first : c.Covers slots step mid)
    (mono : ∀ made wider x, (∀ i q, made i q → wider i q) → mid made x → mid wider x)
    (then_ : ∀ x, c.Covers rest (next x) fun made y => mid made x → good made y)
    (apart : ∀ slot ∈ rest, slot ∉ slots) : c.Covers (slots ++ rest) (step >>= next) good := by
  intro met s ready
  have begun : c.Ready slots met s :=
    { ready with
      listed := fun slot hs => ready.listed slot (List.mem_append_left _ hs)
      untouched := fun slot hs => ready.untouched slot (List.mem_append_left _ hs)
      budget := fun slot hs => ready.budget slot (List.mem_append_left _ hs) }
  apply (first met s begun).bind
  rintro x s' ⟨new, progress, holds⟩
  refine (then_ x _ s' (ready.onward progress apart)).imp ?_ fun _ h => h
  rintro y later ⟨more, progress', good⟩
  refine ⟨new ++ more, ?_, ?_⟩
  · rw [Document.meetingsIn_append, List.map_append]
    exact progress.trans ready.knows.size progress'
  · rw [← List.append_assoc]
    exact good (mono _ _ x (fun _ _ => Made.mono) holds)

theorem unsound_of_unfit {e : String × Container} {v : Json} (called : e ∈ schemaKeywords)
    (found : c.fields.lookup e.1 = some v) (unfit : ¬ e.2.Fits v) : ¬ c.doc.Sound c.place :=
  fun sound => unfit ((sound c.fields c.found).1 e called v found)

theorem unsound_of_slot {slot : Slot} {v : Json} (listed : slot ∈ slotsOf c.fields)
    (found : slot.value? c.fields = some v) (other : ¬ c.doc.IsSchema (c.place.inner slot) v) :
    ¬ c.doc.Sound c.place :=
  fun sound => other ((sound c.fields c.found).2 slot listed v found)

end Reading
end LinkedSchema
