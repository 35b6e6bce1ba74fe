import LinkedSchema.Proofs.Normalize.Abreast
import LinkedSchema.Proofs.Normalize.Alterations
import LinkedSchema.Proofs.Normalize.Conflicts
import LinkedSchema.Proofs.Normalize.Typed
/-! Normalizations that strip the bounds of arrays. Whatever the bounds were, only descriptions are
left that tell them apart. -/
namespace LinkedSchema

variable {g h k l : Graph} {root i : NodeId} {options : Options} {fileName : Option String}
  {rule : Rule} {n m : Node}

namespace Node

/-- The same node, or one that describes arrays too and has other bounds and another description. -/
structure Rebounds (n m : Node) : Prop where
  rest : ∃ minItems maxItems description, m = { n with minItems, maxItems, description }
  typed : n.Typed
  other : m.Typed
  array : m = n ∨ n.isArrayLike = true

/-- A node that has the same bounds too. -/
structure Redescribes (n m : Node) : Prop extends Rebounds n m where
  minItems : m.minItems = n.minItems
  maxItems : m.maxItems = n.maxItems

theorem Rebounds.isArrayLike (rebounds : n.Rebounds m) : m.isArrayLike = n.isArrayLike := by
  obtain ⟨minItems, maxItems, description, rfl⟩ := rebounds.rest
  rfl

theorem Rebounds.successors (rebounds : n.Rebounds m) : m.successors = n.successors := by
  obtain ⟨minItems, maxItems, description, rfl⟩ := rebounds.rest
  rfl

theorem Redescribes.only (redescribes : n.Redescribes m) :
    ∃ description, m = { n with description } := by
  obtain ⟨minItems, maxItems, description, rfl⟩ := redescribes.rest
  obtain rfl : minItems = n.minItems := redescribes.minItems
  obtain rfl : maxItems = n.maxItems := redescribes.maxItems
  exact ⟨description, rfl⟩

end Node

namespace Rule

variable (options) in
/-- The rules for descriptions, and the one that strips bounds, succeed at typed nodes and write
nothing else. -/
theorem rewrites_text (between : rule ∈ (all.drop 6).take 3) (typed : n.Typed) :
    ∃ minItems maxItems description,
      rule.apply options n = .ok { n with minItems, maxItems, description } := by
  simp only [all, List.drop, List.take, List.mem_cons, List.not_mem_nil, or_false] at between
  rcases between with rfl | rfl | rfl
  · obtain ⟨description, made⟩ := escapeDescription_writes n
    exact ⟨_, _, description, congrArg Except.ok made⟩
  · have text : descriptionText? n ≠ none := by
      unfold descriptionText?
      rcases typed.description with absent | filled
      · rw [absent]
        exact Option.some_ne_none _
      · cases given : n.description with
        | str text => exact Option.some_ne_none _
        | _ => rw [given] at filled; cases filled
    cases made : documentBounds n with
    | ok m =>
      obtain ⟨description, rfl⟩ := documentBounds_writes made
      exact ⟨_, _, description, made⟩
    | error e =>
      unfold documentBounds at made
      split at made
      · cases made
      · split at made
        · exact (text ‹_›).elim
        · dsimp only at made
          split at made <;> cases made
  · obtain ⟨minItems, maxItems, made, _⟩ := stripBounds_spec options n
    exact ⟨minItems, maxItems, _, congrArg Except.ok made⟩

theorem carries_rebounds (early : rule ∈ all.take 9) : rule.Carries options Node.Rebounds := by
  intro n m related
  have listed : rule ∈ all := List.mem_of_mem_take early
  have parts : all.take 9 = all.take 6 ++ (all.drop 6).take 3 := rfl
  -- what the rule makes of the two is typed, and describes arrays if they did
  have onward {k l : Node} (first : rule.apply options n = .ok k)
      (second : rule.apply options m = .ok l) (array : l = k ∨ n.isArrayLike = true)
      (rest : ∃ minItems maxItems description,
        l = { k with minItems, maxItems, description }) : k.Rebounds l := by
    have here := resembles_of_rule listed related.typed first
    have there := resembles_of_rule listed related.other second
    exact ⟨rest, here.typed, there.typed, array.imp_right here.array.trans⟩
  rcases related.array with rfl | array
  · cases made : rule.apply options m with
    | error e => exact .error e e
    | ok k => exact .ok (onward made made (.inl rfl) ⟨_, _, _, rfl⟩)
  · obtain ⟨minItems, maxItems, description, rfl⟩ := related.rest
    rw [parts, List.mem_append] at early
    rcases early with early | between
    · have same : rule.apply options { n with minItems, maxItems, description } =
          (rule.apply options n).map fun k => { k with minItems, maxItems, description } :=
        ignores_of_early (fun _ => minItems) (fun _ => maxItems) (fun _ => description)
          (fun v => v) early options n
      cases made : rule.apply options n with
      | error e =>
        rw [same, made]
        exact .error e e
      | ok k =>
        rw [made] at same
        rw [same]
        exact .ok (onward made same (.inr array) ⟨_, _, _, rfl⟩)
    · obtain ⟨_, _, _, first⟩ := rewrites_text options between related.typed
      obtain ⟨_, _, _, second⟩ := rewrites_text options between related.other
      rw [first, second]
      exact .ok (onward first second (.inr array) ⟨_, _, _, rfl⟩)

theorem carries_redescribes (late : rule ∈ all.drop 9) : rule.Carries options Node.Redescribes := by
  intro n m related
  have later : rule ∈ all.drop 8 := List.mem_of_mem_tail late
  have listed : rule ∈ all := List.mem_of_mem_drop late
  obtain ⟨description, rfl⟩ := related.only
  have same : rule.apply options { n with description } =
      (rule.apply options n).map fun k => { k with description } :=
    ignores_of_late (fun _ => description) (fun v => v) later options n
  cases made : rule.apply options n with
  | error e =>
    rw [made] at same
    rw [same]
    exact .error e e
  | ok k =>
    rw [made] at same
    rw [same]
    have here := resembles_of_rule listed related.typed made
    have there := resembles_of_rule listed related.other same
    refine .ok ⟨⟨⟨_, _, _, rfl⟩, here.typed, there.typed, ?_⟩, rfl, rfl⟩
    rcases related.array with unchanged | array
    · have told : description = n.description := congrArg Node.description unchanged
      subst told
      exact .inl (Except.ok.inj (same.symm.trans made))
    · exact .inr (here.array.trans array)

/-- Where bounds are stripped, arrays keep the items that they have. -/
theorem items_of_strips (strips : options.stripItemBounds = true) (typed : n.Typed)
    (array : n.isArrayLike = true) (made : pass all options n = .ok m) : m.items = n.items := by
  have still : m.isArrayLike = true :=
    (resembles_of_pass (fun _ listed => listed) typed made).array.trans array
  obtain ⟨least, most⟩ := (pass_normal typed made).stripped strips still
  obtain ⟨identified, described, bounded, expanded, move, document, drop, expand, rfl⟩ :=
    pass_all_ok made
  obtain ⟨type, required, additional, id, legacyId, rfl, _⟩ := identified_spec move
  obtain ⟨escaped, escape⟩ := escapeDescription_writes
    { n with type, required, additionalProperties := additional, id, legacyId }
  rw [escape] at document
  obtain ⟨description, rfl⟩ := documentBounds_writes document
  obtain ⟨lower, upper, rfl, _⟩ := bounded_spec
    (n := { n with
      type, required, additionalProperties := additional, id, legacyId, description })
    typed.minItems typed.maxItems drop
  obtain ⟨bases, enum, close, _⟩ := closing_spec expanded
  rw [close] at least most ⊢
  obtain ⟨items, additionalItems, same, _⟩ := expandItems_spec expand
  rw [same] at least most
  obtain rfl : lower = .int 0 := least
  obtain rfl : upper = .null := most
  have unbounded : HasPlaces { n with
      type, required, additionalProperties := additional, id, legacyId, description
      minItems := .int 0, maxItems := .null } := by
    refine ⟨fun _ _ => ⟨rfl, rfl⟩, fun _ _ _ bound => ?_⟩
    cases bound
  rw [expandItems_of_places unbounded, Except.ok.injEq] at expand
  rw [← expand]

/-- Arrays have no bounds once they were stripped. -/
theorem pass_strips (strips : options.stripItemBounds = true)
    (made : pass (all.take 9) options n = .ok m) (array : m.isArrayLike = true) :
    m.minItems = .null ∧ m.maxItems = .null := by
  have split : all.take 9 = all.take 8 ++ (all.drop 8).take 1 := rfl
  rw [pass, split, List.foldlM_append] at made
  obtain ⟨k, _, stripped⟩ := bind_ok made
  cases stripped
  obtain ⟨minItems, maxItems, same, gone, _⟩ := stripBounds_spec options k
  rw [same] at array ⊢
  exact gone strips array

end Rule

namespace Graph

theorem lt_size_of_isArrayLike (array : (g.node i).isArrayLike = true) : i < g.size := by
  by_contra outside
  rw [node_of_le (Nat.le_of_not_lt outside)] at array
  cases array

/-- Once the bounds of arrays are stripped, nodes below the root have the same ones. -/
theorem redescribes_of_strips (strips : options.stripItemBounds = true)
    (ran : applyRules (Rule.all.take 9) options fileName root g = .ok () k)
    (ran' : applyRules (Rule.all.take 9) options fileName root h = .ok () l)
    (both : k.Abreast (fun _ => True) Node.Rebounds l) (reaches : k.Reaches root i) :
    (k.node i).Redescribes (l.node i) := by
  have shrink : ∀ rule ∈ Rule.all.take 9, rule.Shrinks := fun rule listed =>
    Rule.all_shrink rule (List.mem_of_mem_take listed)
  have same := both.node i trivial
  rcases same.array with unchanged | array
  · exact ⟨same, by rw [unchanged], by rw [unchanged]⟩
  · have inside := lt_size_of_isArrayLike array
    have reaches' : l.Reaches root i :=
      (both.reaches_iff (fun _ _ related => related.successors) trivial).mpr reaches
    obtain ⟨_, passed⟩ := (applyRules_ok shrink ran).2 i ⟨inside, reaches⟩
    obtain ⟨_, passed'⟩ := (applyRules_ok shrink ran').2 i ⟨both.size ▸ inside, reaches'⟩
    obtain ⟨least, most⟩ := Rule.pass_strips strips passed array
    obtain ⟨least', most'⟩ := Rule.pass_strips strips passed' (same.isArrayLike.trans array)
    exact ⟨same, by rw [least, least'], by rw [most, most']⟩

variable (root fileName) in
/-- Graphs whose arrays differ in bounds and descriptions are normalized alike once bounds are
stripped: to graphs in which all that is below the root differs in descriptions only. -/
theorem normalize_rebounds (strips : options.stripItemBounds = true)
    (kindred : g.Kindred Node.Rebounds h) :
    (∃ g' h', normalize options fileName root g = .ok () g' ∧
      normalize options fileName root h = .ok () h' ∧ g'.Kindred Node.Rebounds h' ∧
        ∀ i, g'.Reaches root i → (g'.node i).Redescribes (h'.node i)) ∨
    ∃ e f g' h', normalize options fileName root g = .error e g' ∧
      normalize options fileName root h = .error f h' := by
  have split : Rule.all = Rule.all.take 9 ++ Rule.all.drop 9 := rfl
  have successors : ∀ n m : Node, n.Rebounds m → m.successors = n.successors :=
    fun _ _ related => related.successors
  have early : ∀ rule ∈ Rule.all.take 9, rule.Shrinks := fun rule listed =>
    Rule.all_shrink rule (List.mem_of_mem_take listed)
  have late : ∀ rule ∈ Rule.all.drop 9, rule.Shrinks := fun rule listed =>
    Rule.all_shrink rule (List.mem_of_mem_drop listed)
  have abreast : g.Abreast (fun _ => True) Node.Rebounds h :=
    ⟨kindred.size, fun i _ => kindred.node i, fun _ _ _ _ => trivial⟩
  have first := abreast.applyRules root options fileName successors
    (fun _ listed => Rule.carries_rebounds listed) early trivial
  rw [normalize, split, applyRules_append, applyRules_append]
  generalize ran : applyRules (Rule.all.take 9) options fileName root g = x at first ⊢
  generalize ran' : applyRules (Rule.all.take 9) options fileName root h = y at first ⊢
  cases first with
  | error e f k l => exact .inr ⟨e, f, k, l, rfl, rfl⟩
  | @ok _ k l both =>
    dsimp only
    have closed : k.Abreast (k.Reaches root) Node.Redescribes l :=
      ⟨both.size, fun _ => redescribes_of_strips strips ran ran' both,
        fun _ reaches _ edge => reaches.tail edge⟩
    have next := closed.applyRules root options fileName (fun _ _ related => related.successors)
      (fun _ listed => Rule.carries_redescribes listed) late .refl
    generalize rest : applyRules (Rule.all.drop 9) options fileName root k = x at next ⊢
    generalize rest' : applyRules (Rule.all.drop 9) options fileName root l = y at next ⊢
    cases next with
    | error e f g' h' => exact .inr ⟨e, f, g', h', rfl, rfl⟩
    | @ok _ g' h' final =>
      refine .inl ⟨g', h', rfl, rfl, ⟨final.size, fun i => ?_⟩, fun i reaches => ?_⟩
      · by_cases reached : k.Reaches root i
        · exact (final.node i reached).toRebounds
        · have reached' : ¬ l.Reaches root i :=
            mt (both.reaches_iff successors trivial).mp reached
          rw [applyRules_kept late rest fun below => reached below.2,
            applyRules_kept late rest' fun below => reached' below.2]
          exact both.node i trivial
      · exact final.node i (final.good_of_reaches .refl reaches)

end Graph
end LinkedSchema
