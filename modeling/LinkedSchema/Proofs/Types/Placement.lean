import LinkedSchema.Proofs.Merging
import LinkedSchema.Proofs.Types.Layout
/-! Where types stand in an export. Each of them is there in full just once: under its label, or
where the only reference to it is. -/
namespace LinkedSchema
namespace TypeGraph

variable {g : TypeGraph} {inner : TypeId → Passage} {root p s t u : TypeId}
  {starts starts' types types' order : List TypeId} {labels : List (TypeId × String)}
  {label : String}

theorem mem_fulls_iff {marks : List Mark} : t ∈ fulls marks ↔ .full t ∈ marks := by
  rw [fulls, List.mem_filterMap]
  constructor
  · rintro ⟨mark, here, found⟩
    cases mark <;> cases found
    exact here
  · exact fun here => ⟨_, here, rfl⟩

theorem fulls_append {before after : List Mark} :
    fulls (before ++ after) = fulls before ++ fulls after := List.filterMap_append

theorem fulls_flatMap {α : Type} {f : α → List Mark} {xs : List α} :
    fulls (xs.flatMap f) = xs.flatMap fun x => fulls (f x) := by
  induction xs with
  | nil => rfl
  | cons x xs ih => rw [List.flatMap_cons, fulls_append, ih, List.flatMap_cons]

theorem fulls_inFull : fulls (g.inFull inner t).marks =
    t :: (g.node t).references.flatMap fun u => fulls (inner u).marks :=
  congrArg (t :: ·) fulls_flatMap

theorem fulls_export : fulls (g.exportMarks inner root labels) =
    fulls (inner root).marks ++ labels.flatMap fun e => fulls (g.inFull inner e.1).marks := by
  rw [exportMarks, fulls_append, fulls_flatMap]

theorem names_exportNodes : (g.exportNodes inner labels).names = labels.map (·.2) := List.map_map

/-- The type is there as often as it is started from, and referred to by the types that are
there. -/
def Entered (g : TypeGraph) (t : TypeId) (starts types : List TypeId) : Prop :=
  types.count t = starts.count t + (types.flatMap fun u => (g.node u).references).count t

namespace Entered

theorem append (first : g.Entered t starts types) (second : g.Entered t starts' types') :
    g.Entered t (starts ++ starts') (types ++ types') := by
  unfold Entered at *
  rw [List.flatMap_append, List.count_append, List.count_append, List.count_append]
  omega

theorem flatMap {α : Type} {start : α → TypeId} {f : α → List TypeId} {xs : List α}
    (each : ∀ x ∈ xs, g.Entered t [start x] (f x)) :
    g.Entered t (xs.map start) (xs.flatMap f) := by
  induction xs with
  | nil => rfl
  | cons x xs ih =>
    have rest := ih fun y listed => each y (List.mem_cons_of_mem _ listed)
    exact (each x List.mem_cons_self).append rest

theorem cons (below : g.Entered t (g.node s).references types) :
    g.Entered t [s] (s :: types) := by
  unfold Entered at *
  rw [List.flatMap_cons, List.count_append, List.count_cons, List.count_cons, List.count_nil]
  omega

end Entered

/-- If only one of the types refers to a type, the others do not count. -/
theorem count_references (only : ∀ u ∈ types, g.Refers u t → u = p) :
    (types.flatMap fun u => (g.node u).references).count t =
      types.count p * (g.node p).references.count t := by
  induction types with
  | nil => simp
  | cons u types ih =>
    have rest := ih fun v listed => only v (List.mem_cons_of_mem _ listed)
    rw [List.flatMap_cons, List.count_append, rest]
    by_cases same : u = p
    · subst same
      rw [List.count_cons_self, Nat.succ_mul, Nat.add_comm]
    · have none : (g.node u).references.count t = 0 :=
        List.count_eq_zero.mpr fun edge => same (only u List.mem_cons_self edge)
      rw [none, List.count_cons_of_ne same, Nat.zero_add]

theorem count_labelled {f : TypeId × String → List TypeId} (absent : ∀ e ∈ labels, t ∉ f e) :
    (labels.flatMap fun e => e.1 :: f e).count t = (labels.map (·.1)).count t := by
  induction labels with
  | nil => rfl
  | cons e labels ih =>
    have rest := ih fun d listed => absent d (List.mem_cons_of_mem _ listed)
    have none := List.count_eq_zero.mpr (absent e List.mem_cons_self)
    rw [List.flatMap_cons, List.count_append, rest, List.count_cons, List.map_cons, List.count_cons,
      none]
    omega

theorem Entered.inFull (each : ∀ u ∈ (g.node s).references, g.Entered t [u] (fulls (inner u).marks)) :
    g.Entered t [s] (fulls (g.inFull inner s).marks) := by
  have inside : g.Entered t ((g.node s).references.map id) _ := .flatMap each
  rw [List.map_id] at inside
  rw [fulls_inFull]
  exact inside.cons

namespace Layout

variable (layout : g.Layout root order labels inner) (visits : g.Visits [root] [] order)
include layout visits

/-- What holds of a reference to a label, and of a type in full whenever it holds of all that
stands in it, holds of all that stands for types. -/
theorem induction {P : TypeId → List Mark → Prop}
    (elsewhere : ∀ t label, labels.lookup t = some label → P t [.reference label])
    (inPlace : ∀ t ∈ order, labels.lookup t = none →
      (∀ u ∈ (g.node t).references, P u (inner u).marks) → P t (g.inFull inner t).marks) :
    ∀ t ∈ order, P t (inner t).marks := by
  have labelled {t : TypeId} (listed : t ∈ order) {label : String}
      (found : labels.lookup t = some label) : P t (inner t).marks := by
    rw [layout.elsewhere t listed label found]
    exact elsewhere t label found
  refine visits.induction (fun t listed absent => Nat.le_of_eq (layout.inPlace t listed absent).1)
    fun t listed ih => ?_
  cases found : labels.lookup t with
  | some label => exact labelled listed found
  | none =>
    rw [(layout.inPlace t listed found).2]
    refine inPlace t listed found fun u edge => ?_
    cases found' : labels.lookup u with
    | some label => exact labelled (visits.mem_of_refers listed edge) found'
    | none => exact ih u edge found'

theorem unlabelled_of_mem : ∀ t ∈ order, ∀ u ∈ fulls (inner t).marks,
    u ∈ order ∧ labels.lookup u = none := by
  refine layout.induction visits (P := fun _ marks => ∀ u ∈ fulls marks,
    u ∈ order ∧ labels.lookup u = none) (fun _ _ _ => nofun) fun t listed absent ih u here => ?_
  rw [fulls_inFull] at here
  rcases List.mem_cons.mp here with rfl | inside
  · exact ⟨listed, absent⟩
  · obtain ⟨v, edge, inside⟩ := List.mem_flatMap.mp inside
    exact ih v edge u inside

theorem resolved_of_mem : ∀ t ∈ order, ∀ label, .reference label ∈ (inner t).marks →
    label ∈ labels.map (·.2) := by
  refine layout.induction visits (P := fun _ marks => ∀ label, .reference label ∈ marks →
    label ∈ labels.map (·.2)) (fun t label found other here => ?_) fun t _ _ ih label here => ?_
  · cases List.mem_singleton.mp here
    exact List.mem_map_of_mem (mem_of_lookup found)
  · obtain ⟨u, edge, inside⟩ := List.mem_flatMap.mp ((List.mem_cons.mp here).resolve_left nofun)
    exact ih u edge label inside

theorem entered (absent : labels.lookup t = none) :
    ∀ s ∈ order, g.Entered t [s] (fulls (inner s).marks) := by
  refine layout.induction visits (P := fun s marks => g.Entered t [s] (fulls marks))
    (fun s label found => ?_) fun s _ _ ih => .inFull ih
  have other : s ≠ t := by
    rintro rfl
    rw [found] at absent
    cases absent
  exact (List.count_eq_zero.mpr (by simpa using other.symm)).symm

omit visits in
theorem listed_of_label {e : TypeId × String} (listed : e ∈ labels) : e.1 ∈ order := by
  have among : e.1 ∈ labels.map (·.1) := List.mem_map_of_mem listed
  rw [layout.listed] at among
  exact List.mem_of_mem_filter among

theorem of_mem_exportMarks {mark : Mark} (inside : root ∈ order)
    (here : mark ∈ g.exportMarks inner root labels) :
    (∃ e ∈ labels, mark = .full e.1) ∨ ∃ s ∈ order, mark ∈ (inner s).marks := by
  rcases List.mem_append.mp here with top | below
  · exact .inr ⟨root, inside, top⟩
  · obtain ⟨e, listed, here⟩ := List.mem_flatMap.mp below
    rcases List.mem_cons.mp here with itself | under
    · exact .inl ⟨e, listed, itself⟩
    · obtain ⟨u, edge, here⟩ := List.mem_flatMap.mp under
      exact .inr ⟨u, visits.mem_of_refers (layout.listed_of_label listed) edge, here⟩

theorem fulls_subset (inside : root ∈ order) : fulls (g.exportMarks inner root labels) ⊆ order := by
  intro t here
  rcases layout.of_mem_exportMarks visits inside (mem_fulls_iff.mp here) with
    ⟨e, listed, same⟩ | ⟨s, listed, here⟩
  · cases same
    exact layout.listed_of_label listed
  · exact (layout.unlabelled_of_mem visits s listed t (mem_fulls_iff.mpr here)).1

theorem references_resolve (inside : root ∈ order)
    (here : .reference label ∈ g.exportMarks inner root labels) : label ∈ labels.map (·.2) := by
  rcases layout.of_mem_exportMarks visits inside here with ⟨_, _, same⟩ | ⟨s, listed, here⟩
  · cases same
  · exact layout.resolved_of_mem visits s listed label here

/-- A type with a label is in full where its label is, and nowhere else. -/
theorem count_of_labelled (inside : root ∈ order) (found : labels.lookup t = some label) :
    (fulls (g.exportMarks inner root labels)).count t = 1 := by
  have nowhere : ∀ s ∈ order, t ∉ fulls (inner s).marks := by
    intro s listed here
    have absent := (layout.unlabelled_of_mem visits s listed t here).2
    rw [found] at absent
    cases absent
  have apart : ∀ e ∈ labels, t ∉ (g.node e.1).references.flatMap fun u => fulls (inner u).marks := by
    intro e listed here
    obtain ⟨u, edge, here⟩ := List.mem_flatMap.mp here
    exact nowhere u (visits.mem_of_refers (layout.listed_of_label listed) edge) here
  have once : (labels.map (·.1)).Nodup := layout.listed ▸ visits.nodup.filter _
  rw [fulls_export, List.count_append, List.count_eq_zero.mpr (nowhere root inside)]
  simp only [fulls_inFull]
  rw [count_labelled apart, List.count_eq_one_of_mem once (List.mem_map_of_mem (mem_of_lookup found))]

/-- A type without a label is in full as often as it is referred to by what is in full. -/
theorem entered_export (inside : root ∈ order) (absent : labels.lookup t = none) :
    g.Entered t [root] (fulls (g.exportMarks inner root labels)) := by
  have each : ∀ e ∈ labels, g.Entered t [e.1] (fulls (g.inFull inner e.1).marks) := fun e listed =>
    .inFull fun u edge => layout.entered visits absent u
      (visits.mem_of_refers (layout.listed_of_label listed) edge)
  have whole := (layout.entered visits absent root inside).append (.flatMap each)
  have none : (labels.map (·.1)).count t = 0 := by
    refine List.count_eq_zero.mpr fun again => ?_
    obtain ⟨e, listed, rfl⟩ := List.mem_map.mp again
    exact ne_of_lookup absent e listed rfl
  rw [← fulls_export, Entered, List.count_append, none] at whole
  exact whole

/-- Every type is in full once. -/
theorem count_eq_one (inside : root ∈ order) (listed : t ∈ order) :
    (fulls (g.exportMarks inner root labels)).count t = 1 := by
  -- The only type that refers to one without a label comes before it in the order.
  induction rank : order.idxOf t using Nat.strong_induction_on generalizing t with
  | h k ih =>
    subst rank
    cases found : labels.lookup t with
    | some label => exact layout.count_of_labelled visits inside found
    | none =>
      have within := layout.fulls_subset visits inside
      have few := Nat.le_of_eq (layout.inPlace t listed found).1
      have entered := layout.entered_export visits inside found
      rcases visits.referred listed with rfl | ⟨p, hp, edge⟩
      · have unreferred : ((fulls (g.exportMarks inner t labels)).flatMap fun u =>
            (g.node u).references).count t = 0 := by
          refine List.count_eq_zero.mpr fun again => ?_
          obtain ⟨u, here, edge⟩ := List.mem_flatMap.mp again
          exact ne_root_of_refers few (within here) edge rfl
        rw [Entered, unreferred, List.count_singleton_self] at entered
        exact entered
      · have earlier := idxOf_lt_of_unlabelled visits few hp edge
        have other := ne_root_of_refers few hp edge
        have single := count_references_le few hp
        have some := List.count_pos_iff.mpr edge
        have start : [root].count t = 0 := List.count_eq_zero.mpr (by simpa using other)
        rw [Entered, start, count_references fun u here again =>
          referrer_unique few (within here) hp again edge, ih _ earlier hp rfl] at entered
        omega

theorem fulls_perm (inside : root ∈ order) :
    (fulls (g.exportMarks inner root labels)).Perm order := by
  refine List.perm_iff_count.mpr fun t => ?_
  by_cases listed : t ∈ order
  · rw [layout.count_eq_one visits inside listed, List.count_eq_one_of_mem visits.nodup listed]
  · have absent : t ∉ fulls (g.exportMarks inner root labels) := fun here =>
      listed (layout.fulls_subset visits inside here)
    rw [List.count_eq_zero.mpr absent, List.count_eq_zero.mpr listed]

end Layout

/-- An export ends, and it is refused just if some type below the root is unfilled. Otherwise it has
a layout, and if names tell types apart, then so do labels: none is overridden by another one, every
type is in full once, and every reference is to a label that is there. -/
theorem toJson_layout (g : TypeGraph) (root : TypeId) :
    (∀ fuel, g.size < fuel → g.orderFrom fuel [root] [] = g.order root) ∧
    (g.toJson root = .error .unfilledType ↔ ¬ g.Filled root) ∧
    (g.Filled root → ∃ order labels inner, g.Layout root order labels inner ∧
      (∀ fuel, g.size < fuel → ∀ t ∈ order, g.typeJson labels fuel t = (inner t).json) ∧
      g.toJson root = .ok (.obj [("root", (inner root).json),
        ("nodes", .obj (Entries.merge [] (g.exportNodes inner labels)))]) ∧
      (g.WellNamed root →
        Entries.merge [] (g.exportNodes inner labels) = g.exportNodes inner labels ∧
        (fulls (g.exportMarks inner root labels)).Perm order ∧
        ∀ label, .reference label ∈ g.exportMarks inner root labels →
          label ∈ (g.exportNodes inner labels).names)) := by
  rcases orderFrom_root (Nat.lt_succ_self g.size) with ⟨order, run, visits, filled⟩ | ⟨run, unfilled⟩
  · obtain ⟨labels, same⟩ : ∃ labels, labels = g.labels (g.allReferences root order) 0 order :=
      ⟨_, rfl⟩
    have written := toJson_of_order run same
    have top : root ∈ order := visits.mem_iff.mpr .refl
    refine ⟨fun fuel enough => ?_, ⟨fun failed => ?_, fun unfilled => absurd filled unfilled⟩,
      fun _ => ?_⟩
    · rcases orderFrom_root enough with ⟨order', run', visits', _⟩ | ⟨_, unfilled⟩
      · rw [run', show g.order root = .ok order from run, visits'.unique visits]
      · exact absurd filled unfilled
    · rw [written] at failed
      cases failed
    · obtain ⟨layout, settled⟩ := layout_of_visits filled visits same
      refine ⟨order, labels, _, layout, settled, written, fun wellNamed => ?_⟩
      have once : (g.exportNodes (g.passage labels (g.size + 1)) labels).names.Nodup := by
        rw [names_exportNodes, same]
        exact labels_nodup wellNamed (fun t => visits.mem_iff.mp) visits.nodup
      refine ⟨Entries.merge_nil once, layout.fulls_perm visits top, fun label here => ?_⟩
      rw [names_exportNodes]
      exact layout.references_resolve visits top here
  · refine ⟨fun fuel enough => ?_, ⟨fun _ => unfilled, fun _ => ?_⟩, fun filled => absurd filled unfilled⟩
    · rcases orderFrom_root enough with ⟨_, _, _, filled⟩ | ⟨run', _⟩
      · exact absurd filled unfilled
      · exact run'.trans run.symm
    · rw [toJson, order, run]
      rfl

/-- A tuple of shared types that refer to one another, and of a named one. -/
def braided : TypeGraph := ⟨#[
  { kind := some .tuple, params := .many [.type 1, .type 2, .type 1] },
  { kind := some .array, params := .one 2 },
  { kind := some .union, params := .many [.type 3, .type 1, .type 4] },
  { kind := some .string, standaloneName := some "S" },
  { kind := some .array, params := .one 3 }]⟩

def braidedJson : Json := .obj [
  ("root", .obj [("tag", .str "TUPLE"), ("params", .arr [reference "#1", reference "#2",
    reference "#1"])]),
  ("nodes", .obj [
    ("#1", .obj [("tag", .str "ARRAY"), ("params", reference "#2")]),
    ("#2", .obj [("tag", .str "UNION"), ("params", .arr [reference "S", reference "#1",
      .obj [("tag", .str "ARRAY"), ("params", reference "S")]])]),
    ("S", .obj [("tag", .str "STRING"), ("standalone_name", .str "S")])])]

/-- The root and the last array stand where the only reference to each of them is. -/
theorem toJson_braided : braided.Filled 0 ∧ braided.WellNamed 0 ∧
    braided.toJson 0 = .ok braidedJson ∧
    ∃ order labels inner, braided.Layout 0 order labels inner ∧
      labels.map (·.2) = ["#1", "#2", "S"] ∧
      (fulls (braided.exportMarks inner 0 labels)).Perm order := by
  have ok : braided.Exportable 0 :=
    exportable_of_all (by decide) (by decide) (by decide) (by decide) (by decide)
  have run : braided.toJson 0 = .ok braidedJson := by rfl
  obtain ⟨_, _, whole⟩ := toJson_layout braided 0
  obtain ⟨order, labels, inner, layout, _, written, named⟩ := whole ok.filled
  obtain ⟨same, once, _⟩ := named ok.toWellNamed
  rw [run, same, Except.ok.injEq] at written
  simp only [braidedJson, Json.obj.injEq, List.cons.injEq, Prod.mk.injEq, true_and, and_true]
    at written
  have names : (braided.exportNodes inner labels).names = ["#1", "#2", "S"] :=
    (congrArg Entries.names written.2).symm
  exact ⟨ok.filled, ok.toWellNamed, run, order, labels, inner, layout,
    names_exportNodes.symm.trans names, once⟩

end TypeGraph
end LinkedSchema
