import LinkedSchema.Proofs.Search
import LinkedSchema.Proofs.Types.Lossless
/-! The layout of an export. Types in full are told from one another by the type that they are,
not by their text, so an export is read as a list of marks: references, and types in full. -/
namespace LinkedSchema

/-- A part of an export: a reference to a label, or a type in full. -/
inductive Mark where
  | reference (label : String)
  | full (t : TypeId)

namespace Mark

def full? : Mark → Option TypeId
  | .full t => some t
  | .reference _ => none

end Mark

/-- What is written in one place, and all parts of it. -/
structure Passage where
  json : Json
  marks : List Mark

def fulls (marks : List Mark) : List TypeId := marks.filterMap Mark.full?

namespace TypeGraph

variable {g : TypeGraph} {inner : TypeId → Passage} {root s t u : TypeId}
  {pending met order order' : List TypeId} {labels : List (TypeId × String)} {label : String}

namespace Visits

/-- The stack of the search has the neighbours that are still to come, so it is depth first. -/
theorem depthFirst (h : g.Visits pending met order) :
    DepthFirst (fun t => (g.node t).references) id met pending order := by
  induction h with
  | done => exact .done
  | again old _ ih => exact .known (by simpa using old) ih
  | first new _ ih => exact .visit (by simpa using new) ih

theorem unique (h : g.Visits pending met order) (h' : g.Visits pending met order') :
    order = order' := by
  induction h generalizing order' with
  | done =>
    cases h'
    rfl
  | again old _ ih =>
    cases h' with
    | again _ rest => exact ih rest
    | first new _ => exact absurd old new
  | first new _ ih =>
    cases h' with
    | again old _ => exact absurd old new
    | first _ rest => rw [ih rest]

theorem referred (h : g.Visits [root] [] order) (listed : t ∈ order) :
    t = root ∨ ∃ p ∈ order, g.Refers p t := by
  obtain ⟨before, after, rfl⟩ := List.append_of_mem listed
  rcases h.met_from before t after rfl with start | ⟨p, hp, edge⟩
  · exact .inl (List.mem_singleton.mp start)
  · exact .inr ⟨p, List.mem_append_left _ hp, edge⟩

end Visits

/-- A type in full, with all that is written in it, one passage for every reference. -/
def inFull (g : TypeGraph) (inner : TypeId → Passage) (t : TypeId) : Passage where
  json := fullJson (fun u => (inner u).json) (g.node t)
  marks := .full t :: (g.node t).references.flatMap fun u => (inner u).marks

/-- What stands for a type, with its marks. -/
def passage (g : TypeGraph) (labels : List (TypeId × String)) : Nat → TypeId → Passage
  | 0, _ => ⟨.null, []⟩
  | fuel + 1, t =>
    match labels.lookup t with
    | some label => ⟨reference label, [.reference label]⟩
    | none => g.inFull (g.passage labels fuel) t

/-- A type is written under a label if it has a name, or more than one reference. -/
def Labelled (g : TypeGraph) (root : TypeId) (order : List TypeId) (t : TypeId) : Prop :=
  (g.node t).standaloneName.isSome ∨ 2 ≤ (g.allReferences root order).count t

/-- A type has a number for a label if it has no name, but more than one reference. -/
def Numbered (g : TypeGraph) (root : TypeId) (order : List TypeId) (t : TypeId) : Prop :=
  (g.node t).standaloneName = none ∧ 2 ≤ (g.allReferences root order).count t

instance : DecidablePred (g.Labelled root order) := fun t =>
  inferInstanceAs (Decidable ((g.node t).standaloneName.isSome ∨ _))

instance : DecidablePred (g.Numbered root order) := fun t =>
  inferInstanceAs (Decidable ((g.node t).standaloneName = none ∧ _))

/-- The types below a root in the order of a depth-first search, their labels, and what stands for
each of them. -/
structure Layout (g : TypeGraph) (root : TypeId) (order : List TypeId)
    (labels : List (TypeId × String)) (inner : TypeId → Passage) : Prop where
  search : DepthFirst (fun t => (g.node t).references) id [] [root] order
  reached : ∀ t, t ∈ order ↔ g.Reaches root t
  listed : labels.map (·.1) = order.filter (g.Labelled root order)
  named : ∀ t ∈ order, ∀ name, (g.node t).standaloneName = some name →
    labels.lookup t = some name
  numbered : ∀ k t, (order.filter (g.Numbered root order))[k]? = some t →
    labels.lookup t = some (numberLabel (k + 1))
  elsewhere : ∀ t ∈ order, ∀ label, labels.lookup t = some label →
    inner t = ⟨reference label, [.reference label]⟩
  inPlace : ∀ t ∈ order, labels.lookup t = none →
    (g.allReferences root order).count t = 1 ∧ inner t = g.inFull inner t

/-- All parts of an export: of the root, and of the types under their labels. -/
def exportMarks (g : TypeGraph) (inner : TypeId → Passage) (root : TypeId)
    (labels : List (TypeId × String)) : List Mark :=
  (inner root).marks ++ labels.flatMap fun e => (g.inFull inner e.1).marks

/-- The types under their labels, as they are written. -/
def exportNodes (g : TypeGraph) (inner : TypeId → Passage) (labels : List (TypeId × String)) :
    Entries Json :=
  labels.map fun e => (e.2, (g.inFull inner e.1).json)

section Labels

variable {references : List TypeId} {numbered : Nat}

theorem labels_fst : (g.labels references numbered order).map (·.1) =
    order.filter fun t => (g.node t).standaloneName.isSome ∨ 2 ≤ references.count t := by
  induction order generalizing numbered with
  | nil => rfl
  | cons s rest ih =>
    rw [labels]
    split
    · rename_i name named
      rw [List.filter_cons_of_pos (by simp [named]), List.map_cons, ih]
    · rename_i unnamed
      split
      · rename_i many
        have many : 2 ≤ references.count s := many
        rw [List.filter_cons_of_pos (by simp [many]), List.map_cons, ih]
      · rename_i few
        have few : ¬ 2 ≤ references.count s := few
        rw [List.filter_cons_of_neg (by simp [unnamed, few]), ih]

/-- Numbers go up from one such type to the next one. -/
theorem mem_labels_numbered {k : Nat} (found : (order.filter fun t =>
      (g.node t).standaloneName = none ∧ 2 ≤ references.count t)[k]? = some t) :
    (t, numberLabel (numbered + k + 1)) ∈ g.labels references numbered order := by
  induction order generalizing numbered k with
  | nil => cases found
  | cons s rest ih =>
    rw [labels]
    split
    · rename_i name named
      rw [List.filter_cons_of_neg (by simp [named])] at found
      exact List.mem_cons_of_mem _ (ih found)
    · rename_i unnamed
      split
      · rename_i many
        have many : 2 ≤ references.count s := many
        rw [List.filter_cons_of_pos (by simp [unnamed, many])] at found
        cases k with
        | zero =>
          cases found
          exact List.mem_cons_self
        | succ k =>
          have later : (t, numberLabel (numbered + 1 + k + 1)) ∈
              g.labels references (numbered + 1) rest := ih found
          rw [Nat.add_right_comm numbered 1 k] at later
          exact List.mem_cons_of_mem _ later
      · rename_i few
        have few : ¬ 2 ≤ references.count s := few
        rw [List.filter_cons_of_neg (by simp [few])] at found
        exact ih found

end Labels

theorem passage_succ (fuel : Nat) (t : TypeId) :
    g.passage labels (fuel + 1) t =
      match labels.lookup t with
      | some label => ⟨reference label, [.reference label]⟩
      | none => g.inFull (g.passage labels fuel) t := rfl

theorem passage_json {fuel : Nat} :
    (g.passage labels fuel t).json = g.typeJson labels fuel t := by
  induction fuel generalizing t with
  | zero => rfl
  | succ fuel ih =>
    rw [passage_succ, typeJson_succ]
    cases labels.lookup t with
    | some label => rfl
    | none => exact fullJson_congr fun u _ => ih

theorem toJson_of_order (run : g.order root = .ok order)
    (same : labels = g.labels (g.allReferences root order) 0 order) :
    g.toJson root = .ok (.obj [("root", (g.passage labels (g.size + 1) root).json),
      ("nodes", .obj (Entries.merge []
        (g.exportNodes (g.passage labels (g.size + 1)) labels)))]) := by
  have texts : g.typeJson labels (g.size + 1) = fun t => (g.passage labels (g.size + 1) t).json :=
    funext fun t => passage_json.symm
  rw [passage_json, toJson, run]
  show Except.ok (Json.obj [("root", g.typeJson _ (g.size + 1) root),
    ("nodes", .obj (labelledJson (g.typeJson _ (g.size + 1)) g _))]) = _
  rw [← same, labelledJson, texts]
  rfl

theorem passage_step {fuel more : Nat}
    (agree : labels.lookup t = none →
      ∀ u ∈ (g.node t).references, g.passage labels fuel u = g.passage labels more u) :
    g.passage labels (fuel + 1) t = g.passage labels (more + 1) t := by
  rw [passage_succ, passage_succ]
  cases found : labels.lookup t with
  | some label => rfl
  | none =>
    have same := agree found
    refine congrArg₂ Passage.mk (fullJson_congr fun u edge => by rw [same u edge]) ?_
    refine congrArg (Mark.full t :: ·) (List.flatMap_congr fun u edge => ?_)
    rw [same u edge]

/-- Every export has a layout, and both its searches have fuel enough. -/
theorem layout_of_visits (filled : g.Filled root) (visits : g.Visits [root] [] order)
    (same : labels = g.labels (g.allReferences root order) 0 order) :
    g.Layout root order labels (g.passage labels (g.size + 1)) ∧
      ∀ fuel, g.size < fuel → ∀ t ∈ order,
        g.typeJson labels fuel t = (g.passage labels (g.size + 1) t).json := by
  have few := Nat.lt_succ_of_le (visits.length_le filled)
  have settled {more : Nat} (le : g.size + 1 ≤ more) {t : TypeId} (listed : t ∈ order) :
      g.passage labels more t = g.passage labels (g.size + 1) t :=
    enough (g.passage labels) visits same (fun _ _ _ => passage_step) few le listed
  have firsts : labels.map (·.1) = order.filter (g.Labelled root order) := by
    rw [same, labels_fst]
    rfl
  have once : (labels.map (·.1)).Nodup := firsts ▸ visits.nodup.filter _
  refine ⟨⟨visits.depthFirst, fun t => visits.mem_iff, firsts, fun t listed name named => ?_,
    fun k t found => ?_, fun t listed label found => ?_, fun t listed absent => ⟨?_, ?_⟩⟩,
    fun fuel enough t listed => ?_⟩
  · have among : t ∈ labels.map (·.1) := by
      rw [firsts, List.mem_filter]
      exact ⟨listed, by simp [Labelled, named]⟩
    obtain ⟨⟨t, label⟩, pair, rfl⟩ := List.mem_map.mp among
    have source := (label_of_mem (same ▸ pair)).2
    rw [named] at source
    obtain rfl : name = label := by simpa using source
    exact lookup_eq_of_mem once pair
  · have pair : (t, numberLabel (0 + k + 1)) ∈ g.labels _ 0 order := mem_labels_numbered found
    rw [Nat.zero_add, ← same] at pair
    exact lookup_eq_of_mem once pair
  · rw [passage_succ, found]
  · have atMost := (unlabelled listed (same ▸ absent)).2
    have atLeast : 0 < (g.allReferences root order).count t := by
      rw [List.count_pos_iff, allReferences, List.mem_cons, List.mem_flatMap]
      exact visits.referred listed
    omega
  · rw [← settled (Nat.le_succ _) listed, passage_succ, absent]
  · rw [passage_json]
    exact TypeGraph.enough (g.typeJson labels) visits same (fun _ _ _ => typeJson_step) few enough
      listed

end TypeGraph
end LinkedSchema
