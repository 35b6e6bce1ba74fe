import LinkedSchema.Proofs.Schema.Exports
import LinkedSchema.Proofs.Schema.RoundTrip
import LinkedSchema.Proofs.Schema.Unfolding
/-! Ingestion of exports. An export is a tree of sound objects, and its graph is exported as it
stands. -/
namespace LinkedSchema

variable {n : Node} {ofNode : NodeId → Json} {d : Document} {p q : Place} {slot : Slot}
  {fields : Entries Json} {v : Json}

section

variable (plain : ∀ v, .bare v ∉ n.children)
  (below : ∀ j, .node j ∈ n.children → (ofNode j).Unfolded)
include plain below

theorem solid_of_unfolded : n.Solid ofNode := by
  intro s child
  cases s with
  | node j =>
    cases h : ofNode j with
    | obj entries => simp [Subschema.toJson, h, Json.isArr]
    | _ =>
      have unfolded := below j child
      rw [h] at unfolded
      cases unfolded
  | bool b => simp [Subschema.toJson, Json.isArr]
  | bare v => exact absurd child (plain v)

end

namespace Json.Unfolded

theorem link?_keywords : (Json.obj (n.keywords ofNode)).link? = none := by
  cases linked : (Json.obj (n.keywords ofNode)).link? with
  | none => rfl
  | some name =>
    have unknown : (n.keywords ofNode).lookup "$link" = none := by
      rw [Node.lookup_keywords]
      rfl
    unfold Json.link? at linked
    split at linked
    · rename_i same
      rw [Json.obj.inj same] at unknown
      cases unknown
    · cases linked

theorem isObject (unfolded : v.Unfolded) : ∃ entries, v = .obj entries := by
  cases unfolded with
  | object => exact ⟨_, rfl⟩

/-- Objects of exports stand for themselves. -/
theorem stands (unfolded : v.Unfolded) : d.stands? p v = some p := by
  cases unfolded with
  | object n ofNode plain below => simp only [Document.stands?, link?_keywords]

end Json.Unfolded

namespace Document

/-- What stands at a place is an unfolding. -/
def Unfolds (d : Document) (p : Place) : Prop :=
  ∃ fields, d.fieldsAt p = some fields ∧ (Json.obj fields).Unfolded

/-- No object that the document leads to stands in two slots, or within itself. -/
structure TreeShaped (d : Document) (start : Place) : Prop where
  once : ∀ p p' q slot slot', d.Reaches start p → d.Reaches start p' → slot ∈ d.slotsAt p →
    slot' ∈ d.slotsAt p' → d.leads? p slot = some q → d.leads? p' slot' = some q →
    p = p' ∧ slot = slot'
  apart : ∀ p, d.Reaches start p → ¬ Relation.TransGen d.Leads p p

/-- What is in the slots of an unfolding is a boolean or an unfolding again. -/
theorem Unfolds.value (unfolds : d.Unfolds p) (here : d.fieldsAt p = some fields)
    (listed : slot ∈ slotsOf fields) : ∃ v, slot.value? fields = some v ∧
      (v.isBool ∨ v.Unfolded) := by
  obtain ⟨_, again, unfolded⟩ := unfolds
  cases here.symm.trans again
  cases unfolded with
  | object n ofNode plain below =>
    obtain ⟨s, child, there⟩ := Node.writes_slot (solid_of_unfolded plain below) listed
    refine ⟨_, there, ?_⟩
    cases s with
    | node j => exact .inr (below j child)
    | bool b => exact .inl rfl
    | bare v => exact absurd child (plain v)

theorem Unfolds.leads (unfolds : d.Unfolds p) (listed : slot ∈ d.slotsAt p)
    (leads : d.leads? p slot = some q) : q = p.inner slot ∧ d.Unfolds q := by
  have ⟨fields, here, _⟩ := unfolds
  rw [slotsAt, here] at listed
  obtain ⟨v, there, shape⟩ := unfolds.value here listed
  simp only [leads?, here, Option.bind_some, there] at leads
  rcases shape with bool | unfolded
  · cases v with
    | bool b => cases leads
    | _ => cases bool
  · rw [unfolded.stands] at leads
    cases leads
    refine ⟨rfl, ?_⟩
    obtain ⟨entries, rfl⟩ := unfolded.isObject
    exact ⟨entries, fieldsAt_inner here there, unfolded⟩

theorem Unfolds.reaches (unfolds : d.Unfolds p) (reaches : d.Reaches p q) : d.Unfolds q := by
  induction reaches with
  | refl => exact unfolds
  | tail _ step ih =>
    obtain ⟨slot, listed, leads⟩ := step
    exact (ih.leads listed leads).2

theorem Unfolds.sound (unfolds : d.Unfolds p) : d.Sound p := by
  intro fields here
  have ⟨_, again, unfolded⟩ := unfolds
  cases here.symm.trans again
  constructor
  · intro e called v found
    cases unfolded with
    | object n ofNode plain below =>
      exact (Node.filled_keywords (solid_of_unfolded plain below) called found).1
  · intro slot listed v found
    obtain ⟨w, there, shape⟩ := unfolds.value here listed
    cases found.symm.trans there
    refine shape.imp id fun unfolded => ?_
    rw [unfolded.stands]
    rfl

/-- Every step leads further into an unfolding. -/
theorem Unfolds.length_lt (unfolds : d.Unfolds p) (leads : Relation.TransGen d.Leads p q) :
    p.path.length < q.path.length := by
  have step {r r' : Place} (reaches : d.Reaches p r) (leads : d.Leads r r') :
      r.path.length < r'.path.length := by
    obtain ⟨slot, listed, leads⟩ := leads
    rw [((unfolds.reaches reaches).leads listed leads).1]
    simp [Place.inner]
  induction leads with
  | single first => exact step .refl first
  | tail walked last ih => exact Nat.lt_trans ih (step walked.to_reflTransGen last)

theorem Unfolds.treeShaped (unfolds : d.Unfolds p) : d.TreeShaped p where
  once := by
    intro r r' q slot slot' reaches reaches' listed listed' leads leads'
    have first := ((unfolds.reaches reaches).leads listed leads).1
    have second := ((unfolds.reaches reaches').leads listed' leads').1
    rw [first] at second
    have origins : (r.inner slot).origin = (r'.inner slot').origin := congrArg Place.origin second
    have paths : r.path ++ [slot] = r'.path ++ [slot'] := congrArg Place.path second
    obtain ⟨path, slots⟩ := List.append_inj' paths rfl
    cases r
    cases r'
    exact ⟨congrArg₂ Place.mk origins path, List.head_eq_of_cons_eq slots⟩
  apart r reaches cycle := Nat.lt_irrefl _ ((unfolds.reaches reaches).length_lt cycle)

variable {g later : Graph} {root : NodeId} {start : Place} {met : List Meeting}

/-- Below a path of nodes of objects further out, an unfolding is exported as it stands. -/
theorem Depicted.exportBelow_eq (depicted : d.Depicted g later root start met)
    (unfolded : v.Unfolded) : ∀ fields p i fuel path, v = .obj fields →
      d.fieldsAt p = some fields → Made g.size met i p → Outside g.size met path p →
      fuel + path.length = later.size → later.exportBelow fuel path i = v := by
  induction unfolded with
  | object n ofNode plain below ih =>
    intro fields p i fuel path same here made outside size
    cases same
    have room := outside.length_lt depicted made
    obtain ⟨fuel, rfl⟩ : ∃ more, fuel = more + 1 := Nat.exists_eq_add_one.mpr (by omega)
    have ⟨k, m, found, number, place⟩ := made
    subst number place
    obtain ⟨_, again, mirrors⟩ := depicted.mirrors k m found
    cases here.symm.trans again
    have solid := solid_of_unfolded plain below
    have restores : Restores (n.keywords ofNode) (later.exportBelow fuel ((g.size + k) :: path))
        (d.Holds (Made g.size met) m.target (n.keywords ofNode))
        (slotsOf (n.keywords ofNode)) := by
      intro slot listed s holds
      obtain ⟨t, child, there⟩ := Node.writes_slot solid listed
      cases s with
      | bool b => exact holds
      | bare v => cases holds
      | node j =>
        obtain ⟨q, leads, made'⟩ := holds
        simp only [leads?, here, Option.bind_some, there] at leads
        cases t with
        | bool b => cases leads
        | bare v => exact absurd child (plain v)
        | node l =>
          have unfolded := below l child
          obtain ⟨entries, text⟩ := unfolded.isObject
          rw [show (Subschema.node l).toJson ofNode = ofNode l from rfl] at there leads
          rw [unfolded.stands] at leads
          cases leads
          have inner := fieldsAt_inner here (text ▸ there)
          rw [there]
          refine congrArg some (ih l child entries _ j fuel _ text inner made'
            (outside.cons made slot) ?_).symm
          rw [List.length_cons]
          omega
    rw [Graph.exportBelow, if_neg (by simpa using outside.new made), Node.keywords_eq,
      mirrors.exported_eq restores, ← Node.keywords_eq]

/-- A document of one unfolding is accepted, and exported as it stands. -/
theorem export_unfolded (unfolded : v.Unfolded) (g : Graph) :
    ∃ start root later, (⟨v, []⟩ : Document).start? = some start ∧
      (⟨v, []⟩ : Document).TreeShaped start ∧
      (⟨v, []⟩ : Document).ingest g = .ok root later ∧ later.toJson root = v := by
  obtain ⟨fields, text⟩ := unfolded.isObject
  have here : (⟨v, []⟩ : Document).fieldsAt ⟨none, []⟩ = some fields := by
    simp [fieldsAt, textFields, text]
  have starts : (⟨v, []⟩ : Document).start? = some ⟨none, []⟩ := unfolded.stands
  have unfolds : (⟨v, []⟩ : Document).Unfolds ⟨none, []⟩ := ⟨fields, here, text ▸ unfolded⟩
  have ends := ingest_ends ⟨v, []⟩ g
  split at ends
  · rename_i root later run
    obtain ⟨start, met, starts', depicted⟩ := ends
    cases starts.symm.trans starts'
    refine ⟨_, root, later, starts, unfolds.treeShaped, run, ?_⟩
    exact depicted.exportBelow_eq unfolded fields _ root later.size [] text here
      ⟨0, _, depicted.search.head, depicted.first, rfl⟩
      ⟨fun _ listed => absurd listed List.not_mem_nil, List.nodup_nil⟩ rfl
  · obtain ⟨q, reaches, unsound⟩ := ends.2 _ starts
    exact absurd (unfolds.reaches reaches).sound unsound

end Document

namespace Graph

/-- Any node of a graph that comes from documents, whatever rules were applied to it, is exported
as a tree that is accepted again, and whose graph is exported as the same tree. -/
theorem export_reingested {g : Graph} (documented : g.Documented) {i : NodeId} (inside : i < g.size)
    (h : Graph) : (∀ fuel, g.size ≤ fuel → g.exportBelow fuel [] i = g.toJson i) ∧
      ∃ start root later, (⟨g.toJson i, []⟩ : Document).start? = some start ∧
        (⟨g.toJson i, []⟩ : Document).TreeShaped start ∧
        (⟨g.toJson i, []⟩ : Document).ingest h = .ok root later ∧
        later.toJson root = g.toJson i := by
  have proper := documented.proper
  constructor
  · exact fun fuel enough => exportBelow_toJson proper.closed inside enough
  · exact Document.export_unfolded (proper.unfolded g.size [] i) h

/-- The spiral after one rule. -/
def smoothed : Graph :=
  after (applyRule ⟨"Remove extends, if it is empty", fun _ n => .ok (Rule.dropEmptyBases n)⟩ {} none 0
    (after (Document.spiral.ingest .empty)))

theorem export_smoothed : smoothed.Documented ∧ 1 < smoothed.size ∧
    (∀ fuel, smoothed.size ≤ fuel → smoothed.exportBelow fuel [] 1 = smoothed.toJson 1) ∧
    ∃ start root later, (⟨smoothed.toJson 1, []⟩ : Document).start? = some start ∧
      (⟨smoothed.toJson 1, []⟩ : Document).TreeShaped start ∧
      (⟨smoothed.toJson 1, []⟩ : Document).ingest smoothed = .ok root later ∧
      later.toJson root = smoothed.toJson 1 := by
  have run : Document.spiral.ingest .empty = .ok 0 (after (Document.spiral.ingest .empty)) := rfl
  have documented : smoothed.Documented :=
    .ruled _ _ _ _ (by simp [Rule.all]) (.ingested .empty run)
  have inside : 1 < smoothed.size := by decide +kernel
  exact ⟨documented, inside, export_reingested documented inside smoothed⟩

example : smoothed.toJson 1 =
    .obj [("items", .obj [("additionalItems", .obj [("$ref", .str "#cycle")])])] := rfl

end Graph
end LinkedSchema
