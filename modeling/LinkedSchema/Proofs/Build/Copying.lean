import LinkedSchema.Proofs.Build.Contract
import LinkedSchema.Proofs.Entries
/-! The steps that make copies of nodes, and where the copies come from. -/
namespace LinkedSchema

variable {g schemas : Graph} {b : Builder} {fuel : Nat}
  {strips : List (NodeId × NodeId)} {narrows : List ((NodeId × Json) × NodeId)}

theorem HiddenIn.cons_iff {e : NodeId × NodeId} {i : NodeId} :
    HiddenIn (e :: strips) i ↔ e.2 = i ∨ HiddenIn strips i := by
  simp [HiddenIn]

theorem Node.children_unnamed (n : Node) : n.unnamed.children = n.children := rfl

theorem Node.children_ofType (n : Node) (type : Json) : (n.ofType type).children = n.children := rfl

/-- What is alike is the same, but for containers and numbers. -/
theorem Json.eq_or_numbers_of_alike {v w : Json} (same : v.alike w = true)
    (noList : w.isArr = false) (noObject : w.isObj = false) :
    v = w ∨ (v.number?.isSome ∧ w.number?.isSome) := by
  cases w with
  | arr items => cases noList
  | obj entries => cases noObject
  | null => cases v <;> simp_all [Json.alike, Json.number?]
  | str text => cases v <;> simp_all [Json.alike, Json.number?]
  | bool x => cases v <;> simp_all [Json.alike, Json.number?]
  | int n => cases v <;> simp_all [Json.alike, Json.number?]
  | float x => cases v <;> simp_all [Json.alike, Json.number?]

theorem Build.defaultFits_number {type : Json} (number : type.number?.isSome) :
    Build.defaultFits type = fun _ => false := by
  cases type <;> first | rfl | cases number

theorem Node.similar_ofType {v w : Json} (n : Node) (same : v.alike w = true)
    (noList : w.isArr = false) (noObject : w.isObj = false) :
    (n.ofType v).Similar (n.ofType w) := by
  rcases Json.eq_or_numbers_of_alike same noList noObject with rfl | ⟨hv, hw⟩
  · exact .refl _
  · refine .inr ⟨w, ?_, hv, hw⟩
    unfold Node.ofType
    rw [Build.defaultFits_number hv, Build.defaultFits_number hw]

/-- Where no copy for the type is found, there is none for one like it. -/
theorem unlike_of_find {i : NodeId} {type : Json}
    (absent : narrows.find? (fun e => e.1.1 == i && e.1.2.alike type) = none) :
    ∀ e ∈ narrows, e.1.1 = i → e.1.2.alike type = false := by
  intro e listed same
  have unlike := List.find?_eq_none.mp absent e listed
  simpa [same] using unlike

namespace Copies

theorem size_le (copies : Copies g schemas strips narrows) : g.size ≤ schemas.size := by
  have := copies.size
  omega

/-- The nodes of the graph itself are no copies. -/
theorem shown_of_lt (copies : Copies g schemas strips narrows) {i : NodeId} (h : i < g.size) :
    ¬ HiddenIn strips i := by
  rintro ⟨e, he, rfl⟩
  exact Nat.not_le_of_lt h (copies.stripped e he).2.2.1

theorem strip (copies : Copies g schemas strips narrows) {i : NodeId} (inside : i < schemas.size)
    (shown : ¬ HiddenIn strips i) (fresh : ∀ e ∈ strips, e.1 ≠ i) :
    Copies g (schemas.push (schemas.node i).unnamed) ((i, schemas.size) :: strips) narrows := by
  have old : ∀ j < schemas.size, (schemas.push (schemas.node i).unnamed).node j = schemas.node j :=
    fun j h => Graph.node_push_of_lt h _
  have hidden : ∀ j < schemas.size, ¬ HiddenIn strips j →
      ¬ HiddenIn ((i, schemas.size) :: strips) j := by
    intro j h shown
    rw [HiddenIn.cons_iff]
    rintro (same | hidden)
    · exact Nat.ne_of_gt h same
    · exact shown hidden
  constructor
  · intro j h
    rw [old j (Nat.lt_of_lt_of_le h copies.size_le), copies.kept j h]
  · rw [Graph.size_push, copies.size, List.length_cons]
    omega
  · intro j h
    rw [Graph.size_push] at h
    rcases Nat.lt_succ_iff_lt_or_eq.mp h with h | rfl
    · rw [old j h]
      exact copies.children j h
    · rw [Graph.node_push_self, Node.children_unnamed]
      exact copies.children i inside
  · intro e he
    rw [Graph.size_push]
    rcases List.mem_cons.mp he with rfl | he
    · refine ⟨Nat.lt_succ_of_lt inside, hidden i inside shown, copies.size_le, Nat.lt_succ_self _, ?_⟩
      rw [Graph.node_push_self, old i inside]
    · obtain ⟨source, visible, above, copy, same⟩ := copies.stripped e he
      refine ⟨Nat.lt_succ_of_lt source, hidden _ source visible, above, Nat.lt_succ_of_lt copy, ?_⟩
      rw [old _ copy, old _ source, same]
  · intro e he
    rw [Graph.size_push]
    obtain ⟨source, visible, above, copy, same, listed, flat⟩ := copies.narrowed e he
    refine ⟨Nat.lt_succ_of_lt source, hidden _ copy visible, above, Nat.lt_succ_of_lt copy, ?_, ?_,
        flat⟩
    · rw [old _ copy, old _ source, same]
    · rwa [old _ source]
  · intro j h
    rw [Graph.size_push] at h
    rw [HiddenIn.cons_iff]
    rcases Nat.lt_succ_iff_lt_or_eq.mp h with h | rfl
    · rcases copies.origin j h with own | hidden | narrowed
      · exact .inl own
      · exact .inr (.inl (.inr hidden))
      · exact .inr (.inr narrowed)
    · exact .inr (.inl (.inl rfl))
  · rw [List.map_cons, List.nodup_cons]
    refine ⟨?_, copies.strippedOnce⟩
    intro again
    obtain ⟨e, he, same⟩ := List.mem_map.mp again
    exact fresh e he same
  · exact copies.narrowedOnce

theorem narrow (copies : Copies g schemas strips narrows) {i : NodeId} {type : Json}
    (inside : i < schemas.size) (listed : type ∈ (schemas.node i).typeList)
    (flat : type.isArr = false)
    (fresh : ∀ e ∈ narrows, e.1.1 = i → e.1.2.alike type = false) :
    Copies g (schemas.push ((schemas.node i).ofType type)) strips
      (((i, type), schemas.size) :: narrows) := by
  have old : ∀ j < schemas.size,
      (schemas.push ((schemas.node i).ofType type)).node j = schemas.node j :=
    fun j h => Graph.node_push_of_lt h _
  have unhidden : ¬ HiddenIn strips schemas.size := by
    rintro ⟨e, he, same⟩
    exact Nat.ne_of_lt (copies.stripped e he).2.2.2.1 same
  constructor
  · intro j h
    rw [old j (Nat.lt_of_lt_of_le h copies.size_le), copies.kept j h]
  · rw [Graph.size_push, copies.size, List.length_cons]
    omega
  · intro j h
    rw [Graph.size_push] at h
    rcases Nat.lt_succ_iff_lt_or_eq.mp h with h | rfl
    · rw [old j h]
      exact copies.children j h
    · rw [Graph.node_push_self, Node.children_ofType]
      exact copies.children i inside
  · intro e he
    rw [Graph.size_push]
    obtain ⟨source, visible, above, copy, same⟩ := copies.stripped e he
    refine ⟨Nat.lt_succ_of_lt source, visible, above, Nat.lt_succ_of_lt copy, ?_⟩
    rw [old _ copy, old _ source, same]
  · intro e he
    rw [Graph.size_push]
    rcases List.mem_cons.mp he with rfl | he
    · refine ⟨Nat.lt_succ_of_lt inside, unhidden, copies.size_le, Nat.lt_succ_self _, ?_, ?_, flat⟩
      · rw [Graph.node_push_self, old i inside]
      · rwa [old i inside]
    · obtain ⟨source, visible, above, copy, same, listed, flat⟩ := copies.narrowed e he
      refine ⟨Nat.lt_succ_of_lt source, visible, above, Nat.lt_succ_of_lt copy, ?_, ?_, flat⟩
      · rw [old _ copy, old _ source, same]
      · rwa [old _ source]
  · intro j h
    rw [Graph.size_push] at h
    rcases Nat.lt_succ_iff_lt_or_eq.mp h with h | rfl
    · rcases copies.origin j h with own | hidden | ⟨e, he, same⟩
      · exact .inl own
      · exact .inr (.inl hidden)
      · exact .inr (.inr ⟨e, List.mem_cons_of_mem _ he, same⟩)
    · exact .inr (.inr ⟨_, List.mem_cons_self, rfl⟩)
  · exact copies.strippedOnce
  · exact List.pairwise_cons.mpr ⟨fun e he => fresh e he, copies.narrowedOnce⟩

end Copies

namespace Builder

/-- A state with more schemas, of which only the new ones can be hidden. -/
theorem Continues.of_schemas {later : Builder} (sound : b.Sound g)
    (copies : Copies g later.schemas later.stripped later.narrowed)
    (size : b.schemas.size ≤ later.schemas.size)
    (node : ∀ i < b.schemas.size, later.schemas.node i = b.schemas.node i)
    (stripped : b.stripped <:+ later.stripped)
    (hidden : ∀ e ∈ later.stripped, e ∈ b.stripped ∨ b.schemas.size ≤ e.2)
    (built : later.built = b.built) (types : later.types = b.types) : b.Continues g later where
  sound := {
    copies := copies
    built := by
      rw [built, types]
      intro e he
      exact ⟨Nat.lt_of_lt_of_le (sound.built e he).1 size, (sound.built e he).2⟩
    builtOnce := by rw [built]; exact sound.builtOnce }
  grows := {
    schemas := size
    node := node
    built := built ▸ List.suffix_refl _
    stripped := stripped
    hidden := hidden
    types := Nat.le_of_eq (by rw [types]) }
  keeps := by unfold KeepsForms; rw [types]; exact fun _ _ => rfl
  complete := by rw [built]; exact fun _ h => .inl h

end Builder

namespace Build

theorem get_bind_apply {α : Type} (f : Builder → Build α) (b : Builder) :
    (get >>= f) b = f b b := rfl

theorem meets_strip {i : NodeId} (sound : b.Sound g) (inside : i < b.schemas.size)
    (shown : ¬ b.Hidden i) :
    Meets g fuel b (strip i) (fun copy later => copy < later.schemas.size ∧ later.Hidden copy ∧
      later.schemas.node copy = (later.schemas.node i).unnamed) := by
  cases found : b.stripped.lookup i with
  | some copy =>
    have run : strip i b = .ok copy b := by
      rw [strip, get_bind_apply, found]
      rfl
    obtain ⟨_, _, _, copied, same⟩ := sound.copies.stripped _ (mem_of_lookup found)
    exact meets_of_ok run (.refl sound) ⟨copied, ⟨_, mem_of_lookup found, rfl⟩, same⟩
  | none =>
    have run : strip i b = .ok b.schemas.size { b with
        schemas := b.schemas.push (b.schemas.node i).unnamed
        stripped := (i, b.schemas.size) :: b.stripped } := by
      rw [strip, get_bind_apply, found]
      rfl
    apply meets_of_ok run
    · refine .of_schemas sound (sound.copies.strip inside shown (ne_of_lookup found)) ?_ ?_ ?_ ?_ rfl rfl
      · exact Nat.le_of_lt (by simp)
      · exact fun j h => Graph.node_push_of_lt h _
      · exact List.suffix_cons _ _
      · intro e he
        rcases List.mem_cons.mp he with rfl | he
        · exact .inr (Nat.le_refl _)
        · exact .inl he
    · refine ⟨by simp, ⟨_, List.mem_cons_self, rfl⟩, ?_⟩
      show (b.schemas.push _).node b.schemas.size = ((b.schemas.push _).node i).unnamed
      rw [Graph.node_push_self, Graph.node_push_of_lt inside]

theorem meets_narrow {i : NodeId} {type : Json} (sound : b.Sound g) (inside : i < b.schemas.size)
    (listed : type ∈ (b.schemas.node i).typeList) :
    Meets g fuel b (narrow i type) (fun copy later => copy < later.schemas.size ∧
      ¬ later.Hidden copy ∧
      (later.schemas.node copy).Similar ((later.schemas.node i).ofType type)) := by
  cases container : type.isArr || type.isObj with
  | true =>
    have run : narrow i type b = .error (.misused .typeName) b := by
      rw [narrow, if_pos container]
      rfl
    exact meets_of_error run sound nofun
  | false =>
    obtain ⟨noList, noObject⟩ := Bool.or_eq_false_iff.mp container
    cases found : b.narrowed.find? fun e => e.1.1 == i && e.1.2.alike type with
    | some e =>
      have run : narrow i type b = .ok e.2 b := by
        rw [narrow, if_neg (ne_true_of_eq_false container)]
        beta_reduce
        rw [get_bind_apply, found]
        rfl
      have known : e.1.1 = i ∧ e.1.2.alike type = true := by simpa using List.find?_some found
      obtain ⟨_, shown, _, copied, same, _⟩ :=
        sound.copies.narrowed e (List.mem_of_find?_eq_some found)
      refine meets_of_ok run (.refl sound) ⟨copied, shown, ?_⟩
      rw [same, known.1]
      exact Node.similar_ofType _ known.2 noList noObject
    | none =>
      have run : narrow i type b = .ok b.schemas.size { b with
          schemas := b.schemas.push ((b.schemas.node i).ofType type)
          narrowed := ((i, type), b.schemas.size) :: b.narrowed } := by
        rw [narrow, if_neg (ne_true_of_eq_false container)]
        beta_reduce
        rw [get_bind_apply, found]
        rfl
      have copies := sound.copies.narrow inside listed noList (unlike_of_find found)
      apply meets_of_ok run
      · refine .of_schemas sound copies ?_ ?_ (List.suffix_refl _) (fun _ h => .inl h) rfl rfl
        · exact Nat.le_of_lt (by simp)
        · exact fun j h => Graph.node_push_of_lt h _
      · refine ⟨by simp, (copies.narrowed _ List.mem_cons_self).2.1, ?_⟩
        show ((b.schemas.push _).node b.schemas.size).Similar (((b.schemas.push _).node i).ofType type)
        rw [Graph.node_push_self, Graph.node_push_of_lt inside]
        exact .refl _

end Build
end LinkedSchema
