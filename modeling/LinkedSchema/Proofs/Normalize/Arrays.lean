import LinkedSchema.Proofs.Normalize.Hosting
import LinkedSchema.Proofs.Normalize.Rules
import LinkedSchema.Proofs.Schema.Arrays
/-! Arrays with a schema for all of their items, or with none, between two bounds. A pass of the
rules settles the bounds the same way for both. -/
namespace LinkedSchema

variable {n : Node} {item : Option Subschema} {s : Subschema} {items : Option Json}
  {lower upper : Option Int} {options : Options} {l u : Int}

namespace Rule

/-- The bounds that are left: none, where they are stripped, and no upper one that is too far from
the lower one. -/
def settled (options : Options) (lower upper : Option Int) : Int × Option Int :=
  if options.stripItemBounds then (0, none)
  else (lower.getD 0, upper.filter fun u => u - lower.getD 0 ≤ options.maxTupleSize)

/-- The description of an array that had none. -/
def boundNote (lower upper : Option Int) : Json :=
  let lines := boundLines (.array none (.bound lower) (.bound upper) .null)
  if lines.isEmpty then .null else .str ("\n".intercalate lines)

/-- The number of places of a tuple between two bounds, if they make one. A negative upper bound is
none. -/
def places (lower upper : Int) : Option Nat :=
  if 0 ≤ upper then some upper.toNat else if 0 < lower then some lower.toNat else none

end Rule

namespace Node

open Rule (settled boundNote places)

/-- An array once its bounds are settled and described. -/
def settledArray (options : Options) (item : Option Subschema) (lower upper : Option Int) : Node :=
  let (least, most) := settled options lower upper
  array item (.int least) (.bound most) (boundNote lower upper)

/-- A node once its places are laid out between two bounds. -/
def laidOut (n : Node) (s : Subschema) (lower upper : Int) : Node :=
  match places lower upper with
  | none => n
  | some count =>
    { n with
      items := some (.positions (List.replicate count s))
      additionalItems := if 0 ≤ upper then none else some s }

theorem description_laidOut (n : Node) (s : Subschema) (lower upper : Int) :
    (n.laidOut s lower upper).description = n.description := by
  unfold laidOut
  cases places lower upper <;> rfl

theorem isArrayLike_array (lower upper description : Json) :
    (array item lower upper description).isArrayLike = true := by
  simp [isArrayLike, hasType, array, Json.isStr]

end Node

namespace Rule

variable {description : Json}

theorem documentBounds_array : documentBounds (.array item (.bound lower) (.bound upper) .null) =
    .ok (.array item (.bound lower) (.bound upper) (boundNote lower upper)) := by
  have text : descriptionText? (.array item (.bound lower) (.bound upper) .null) = some "" := rfl
  have lines : boundLines (.array item (.bound lower) (.bound upper) .null) =
      boundLines (.array none (.bound lower) (.bound upper) .null) := rfl
  unfold documentBounds boundNote
  rw [Node.isArrayLike_array, text, lines]
  generalize boundLines (.array none (.bound lower) (.bound upper) .null) = given
  have missing : given.filter (!(linesOf "").contains ·) = given :=
    List.filter_eq_self.mpr fun _ _ => rfl
  dsimp only
  rw [missing]
  cases given <;> rfl

theorem stripBounds_array (lower upper : Json) :
    stripBounds options (.array item lower upper description) =
      if options.stripItemBounds then .array item .null .null description
      else .array item lower upper description := by
  unfold stripBounds
  rw [Node.isArrayLike_array, Bool.and_true]
  rfl

theorem defaultMinItems_array :
    defaultMinItems (.array item (.bound lower) (.bound upper) description) =
      .array item (.int (lower.getD 0)) (.bound upper) description := by
  unfold defaultMinItems
  rw [Node.isArrayLike_array]
  cases lower <;> rfl

theorem orZero_int (k : Int) : (Json.int k).orZero = .int k := by
  by_cases zero : k = 0
  · subst zero
    rfl
  · simp [Json.orZero, Json.truthy, zero]

theorem dropWideMaxItems_array :
    dropWideMaxItems options (.array item (.int l) (.bound upper) description) =
      .ok (.array item (.int l) (.bound (upper.filter fun u => u - l ≤ options.maxTupleSize))
        description) := by
  cases upper with
  | none =>
    unfold dropWideMaxItems
    rw [Node.isArrayLike_array]
    rfl
  | some u =>
    generalize made : Node.array item (.int l) (.bound (some u)) description = n
    have array : n.isArrayLike = true := made ▸ Node.isArrayLike_array _ _ _
    have most : n.maxItems = .int u := by
      rw [← made]
      rfl
    have least : n.minItems.orZero = .int l := by
      rw [← made]
      exact orZero_int l
    unfold dropWideMaxItems
    rw [array, most, least]
    simp only [Json.number?, Number.sub?, less_int, decide_eq_true_eq]
    have given : ¬ (!true || (Json.int u).isNull) = true := Bool.false_ne_true
    rw [if_neg given, Option.filter_some, ← made]
    by_cases wide : (options.maxTupleSize : Int) < u - l
    · rw [if_pos wide, if_neg (mt of_decide_eq_true (Int.not_le.mpr wide))]
      rfl
    · rw [if_neg wide, if_pos (decide_eq_true (Int.not_lt.mp wide))]

theorem settle_array :
    dropWideMaxItems options (defaultMinItems (stripBounds options
      (.array item (.bound lower) (.bound upper) (boundNote lower upper)))) =
        .ok (.settledArray options item lower upper) := by
  unfold Node.settledArray settled
  rw [stripBounds_array]
  split
  · rw [show Json.null = Json.bound none from rfl, defaultMinItems_array, dropWideMaxItems_array]
    rfl
  · rw [defaultMinItems_array, dropWideMaxItems_array]

/-- Before it comes to its items, a pass settles the bounds of an array and describes it. -/
theorem pass_settles : pass all options (.array item (.bound lower) (.bound upper) .null) =
    (expandItems (.settledArray options item lower upper)).bind (pass (all.drop 12) options) := by
  show (documentBounds (.array item (.bound lower) (.bound upper) .null)).bind
    (fun n => (dropWideMaxItems options (defaultMinItems (stripBounds options n))).bind
      fun n => (expandItems n).bind (pass (all.drop 12) options)) = _
  rw [documentBounds_array]
  show (dropWideMaxItems options (defaultMinItems (stripBounds options
    (.array item (.bound lower) (.bound upper) (boundNote lower upper))))).bind _ = _
  rw [settle_array]
  rfl

/-- Without a schema for its items, there is nothing more to do. -/
theorem pass_untyped : pass all options (.array none (.bound lower) (.bound upper) .null) =
    .ok (.settledArray options none lower upper) := by
  rw [pass_settles]
  rfl

theorem settled_ordered (ordered : ∀ l ∈ lower, ∀ u ∈ upper, 0 ≤ u → l ≤ u)
    (given : (settled options lower upper).2 = some u) (bound : 0 ≤ u) :
    (settled options lower upper).1 ≤ u := by
  cases strip : options.stripItemBounds with
  | true =>
    simp only [settled, strip, if_true] at given
    cases given
  | false =>
    simp only [settled, strip, Bool.false_eq_true, if_false] at given ⊢
    obtain ⟨most, _⟩ := Option.filter_eq_some_iff.mp given
    cases lower with
    | none => exact bound
    | some l => exact ordered l rfl u most bound

theorem placeCount_array : placeCount (.array item (.int l) (.bound upper) description) =
    .ok (max (upper.getD 0) l).toNat := by
  have most : (Json.bound upper).orZero = .int (upper.getD 0) := by
    cases upper with
    | none => rfl
    | some u => exact orZero_int u
  have upperBound : (Node.array item (.int l) (.bound upper) description).maxItems.orZero =
      .int (upper.getD 0) := most
  have lowerBound : (Node.array item (.int l) (.bound upper) description).minItems.orZero =
      .int l := orZero_int l
  unfold placeCount
  dsimp only
  rw [upperBound, lowerBound]
  simp only [Json.number?, less_int, decide_eq_true_eq]
  by_cases less : upper.getD 0 < l
  · rw [if_pos less, Int.max_eq_right (Int.le_of_lt less)]
    rfl
  · rw [if_neg less, Int.max_eq_left (Int.not_lt.mp less)]
    rfl

theorem repeatItem_each {count : Nat} (single : n.items = some (.each s))
    (counted : placeCount n = .ok count) :
    repeatItem n = .ok (
      if (upperBound? n).isSome then { n with items := some (.positions (.replicate count s)) }
      else if (lowerBound? n).isSome then
        { n with items := some (.positions (.replicate count s)), additionalItems := some s }
      else n) := by
  have same : upperBound? { n with items := some (.positions (.replicate count s)) } =
      upperBound? n := rfl
  unfold repeatItem
  rw [single, counted]
  dsimp only
  cases upper : (upperBound? n).isSome with
  | true =>
    rw [Bool.true_or, if_pos rfl, if_pos rfl]
    refine congrArg Except.ok ?_
    rw [same, upper]
    rfl
  | false =>
    cases lower : (lowerBound? n).isSome with
    | true =>
      rw [Bool.false_or, if_pos rfl, if_neg Bool.false_ne_true, if_pos rfl]
      refine congrArg Except.ok ?_
      rw [same, upper]
      rfl
    | false => rfl

theorem truncateItems_replicate {count : Nat} (fits : ∀ u ∈ upperBound? n, count = u.toNat) :
    truncateItems { n with items := some (.positions (.replicate count s)) } =
      { n with items := some (.positions (.replicate count s)) } := by
  have same : upperBound? { n with items := some (.positions (.replicate count s)) } =
      upperBound? n := rfl
  unfold truncateItems
  rw [same]
  cases given : upperBound? n with
  | none => rfl
  | some u =>
    dsimp only
    rw [fits u given, List.take_of_length_le (List.length_replicate.le)]

theorem upperBound?_array : upperBound? (.array item (.int l) (.bound upper) description) =
    upper.filter (0 ≤ ·) := by
  cases upper <;> rfl

theorem isSome_lowerBound?_array :
    (lowerBound? (.array item (.int l) (.bound upper) description)).isSome = decide (0 < l) := by
  by_cases least : 0 < l <;> simp [lowerBound?, Node.array, Json.int?, Option.filter_some, least]

/-- Below an upper bound, there are as many places as it says. -/
theorem expandItems_bounded (ordered : l ≤ u) (bounded : 0 ≤ u) :
    expandItems (.array (some s) (.int l) (.bound (some u)) description) =
      .ok { Node.array (some s) (.int l) (.bound (some u)) description with
        items := some (.positions (.replicate u.toNat s)) } := by
  have most : upperBound? (.array (some s) (.int l) (.bound (some u)) description) = some u := by
    rw [upperBound?_array, Option.filter_some, if_pos (decide_eq_true bounded)]
  have counted : placeCount (.array (some s) (.int l) (.bound (some u)) description) =
      .ok u.toNat := by
    rw [placeCount_array, Option.getD_some, Int.max_eq_left ordered]
  have fits : ∀ v ∈ upperBound? (.array (some s) (.int l) (.bound (some u)) description),
      u.toNat = v.toNat := by
    intro v given
    rw [most] at given
    cases given
    rfl
  unfold expandItems
  rw [repeatItem_each rfl counted, most, if_pos Option.isSome_some]
  exact congrArg Except.ok (truncateItems_replicate fits)

/-- Without an upper bound, there are as many places as the lower one says, if it says anything, and
items like them after these. -/
theorem expandItems_unbounded (unbounded : upper.filter (0 ≤ ·) = none) :
    expandItems (.array (some s) (.int l) (.bound upper) description) =
      .ok (if 0 < l then { Node.array (some s) (.int l) (.bound upper) description with
          items := some (.positions (.replicate l.toNat s)), additionalItems := some s }
        else .array (some s) (.int l) (.bound upper) description) := by
  have single : (Node.array (some s) (.int l) (.bound upper) description).items =
      some (.each s) := rfl
  have most : upperBound? (.array (some s) (.int l) (.bound upper) description) = none := by
    rw [upperBound?_array, unbounded]
  have repeated := repeatItem_each single placeCount_array
  rw [most, isSome_lowerBound?_array,
    if_neg (show ¬ (none : Option Int).isSome = true from Bool.false_ne_true)] at repeated
  generalize Node.array (some s) (.int l) (.bound upper) description = n at *
  have fits (count : Nat) : ∀ v ∈ upperBound? n, count = v.toNat := by
    intro v given
    rw [most] at given
    cases given
  unfold expandItems
  rw [repeated]
  by_cases least : 0 < l
  · have count : max (upper.getD 0) l = l := by
      refine Int.max_eq_right ?_
      cases upper with
      | none => exact Int.le_of_lt least
      | some u =>
        have negative : ¬ 0 ≤ u := by simpa [Option.filter_some] using unbounded
        exact Int.le_of_lt (Int.lt_trans (Int.not_le.mp negative) least)
    rw [if_pos least, if_pos (decide_eq_true least), count]
    refine congrArg Except.ok ?_
    exact truncateItems_replicate (n := { n with additionalItems := some s }) (fits _)
  · rw [if_neg least, if_neg (mt of_decide_eq_true least)]
    refine congrArg Except.ok ?_
    show truncateItems n = n
    unfold truncateItems
    rw [single]

/-- A schema for all items is repeated at every place. -/
theorem expandItems_array (ordered : ∀ u ∈ upper, 0 ≤ u → l ≤ u) :
    expandItems (.array (some s) (.int l) (.bound upper) description) =
      .ok ((Node.array (some s) (.int l) (.bound upper) description).laidOut s l
        (upper.getD (-1))) := by
  by_cases bounded : 0 ≤ upper.getD (-1)
  · obtain ⟨u, rfl⟩ : ∃ u, upper = some u := by
      cases upper with
      | none => simp at bounded
      | some u => exact ⟨u, rfl⟩
    refine (expandItems_bounded (ordered u rfl bounded) bounded).trans ?_
    rw [Node.laidOut, places, if_pos bounded, if_pos bounded]
    rfl
  · have unbounded : upper.filter (0 ≤ ·) = none := by
      cases upper with
      | none => rfl
      | some u => simpa [Option.filter_some] using bounded
    rw [expandItems_unbounded unbounded, Node.laidOut, places, if_neg bounded, if_neg bounded]
    by_cases least : 0 < l
    · rw [if_pos least, if_pos least]
    · rw [if_neg least, if_neg least]

/-- With a schema for its items, an array whose bounds make a tuple has it at every place. -/
theorem pass_typed (ordered : ∀ l ∈ lower, ∀ u ∈ upper, 0 ≤ u → l ≤ u) :
    pass all options (.array (some s) (.bound lower) (.bound upper) .null) =
      .ok ((Node.settledArray options (some s) lower upper).laidOut s
        (settled options lower upper).1 ((settled options lower upper).2.getD (-1))) := by
  rw [pass_settles]
  unfold Node.settledArray
  rw [expandItems_array fun u given => settled_ordered ordered given]
  unfold Node.laidOut
  cases places _ _ <;> rfl

end Rule

theorem Node.leadsTo_array {lower upper description : Json} {j : NodeId}
    (leads : (array item lower upper description).LeadsTo j) : item = some (.node j) := by
  rw [leadsTo_iff] at leads
  cases item with
  | none => cases leads
  | some s =>
    have single : (array (some s) lower upper description).children = [s] := by cases s <;> rfl
    rw [single, List.mem_singleton] at leads
    rw [leads]

namespace Graph

variable {g g' h : Graph} {r : NodeId} {fileName : Option String} {m : Node}

theorem normalize_empty (options : Options) (fileName : Option String) (r : NodeId) :
    ∃ g, normalize options fileName r .empty = .ok () g := by
  have steady : ∀ i, Below .empty r i → Rule.Steady options Rule.all (node .empty i) {} :=
    fun i below => absurd below.1 (Nat.not_lt_zero i)
  exact (applyRules_steady (f := fun _ => {}) steady).imp fun g run => run.1

/-- An array is normalized on its own, and the nodes of its items as they are by themselves. -/
theorem normalize_array (run : normalize options fileName r g = .ok () g')
    (node : h.node 0 = .array item (.bound lower) (.bound upper) .null) (inside : 0 < h.size)
    (hosts : ∀ j, item = some (.node j) → j = r + 1 ∧ h.Hosts g)
    (pass : Rule.pass Rule.all options (.array item (.bound lower) (.bound upper) .null) = .ok m) :
    ∃ h', normalize options fileName 0 h = .ok () h' ∧ h'.node 0 = m ∧
      (m.LeadsTo (r + 1) → h'.Hosts g') := by
  rw [← node] at pass
  have leads : ∀ j, (h.node 0).LeadsTo j → item = some (.node j) := fun j edge =>
    Node.leadsTo_array (node ▸ edge)
  obtain ⟨h', ran, _, first, hosts'⟩ := normalize_hosts run inside
    (fun edge => (hosts _ (leads _ edge)).2) (fun j edge => (hosts j (leads j edge)).1) pass
  exact ⟨h', ran, first, hosts'⟩

/-- An array whose items have no nodes is all that is normalized. -/
theorem normalize_alone_array (options : Options) (fileName : Option String)
    (item : Option Subschema) (leaf : ∀ j, item ≠ some (.node j))
    (pass : Rule.pass Rule.all options (.array item (.bound lower) (.bound upper) .null) = .ok m) :
    ∃ h, normalize options fileName 0 (.push .empty (.array item (.bound lower) (.bound upper)
      .null)) = .ok () h ∧ h.node 0 = m := by
  obtain ⟨g, nothing⟩ := normalize_empty options fileName 0
  have node : (push .empty (.array item (.bound lower) (.bound upper) .null)).node 0 =
    .array item (.bound lower) (.bound upper) .null := node_push_self .empty _
  obtain ⟨h, run, first, _⟩ := normalize_array nothing node Nat.one_pos
    (fun j given => absurd given (leaf j)) pass
  exact ⟨h, run, first⟩

end Graph
end LinkedSchema
