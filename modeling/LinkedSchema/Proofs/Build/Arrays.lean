import LinkedSchema.Proofs.Build.Hosting
import LinkedSchema.Proofs.Build.Parentless
import LinkedSchema.Proofs.Build.Repeats
import LinkedSchema.Proofs.Normalize.Arrays
/-! The types of arrays. Between the same bounds, an array with a schema for all of its items has
the same number of places as one of anything. -/
namespace LinkedSchema

variable {α β γ : Type} {x : Form α} {y : Form β} {z : Form γ} {g h : Graph} {r i : NodeId}
  {n : Node} {s : Subschema} {need : Need} {further : Option Need} {category : Category}
  {fileName : Option String} {options : Options} {l : Int} {u lower upper : Option Int}
  {description v : Json} {parts : Entries Json} {t : TypeId} {b c : Builder}

/-- How many parts a type is made of. -/
def Params.count : Params α → Nat
  | .many parts => parts.length
  | _ => 1

theorem Params.Matches.count {same : Json → Json → Prop} {R : α → β → Prop} {p : Params α}
    {q : Params β} (agree : p.Matches same R q) : p.count = q.count := by
  cases agree with
  | many parts => exact parts.length_eq
  | _ => rfl

namespace Form

/-- Forms of one kind with as many parts, between the same bounds. -/
structure SameArity (x : Form α) (y : Form β) : Prop where
  kind : x.kind = y.kind
  params : x.params.count = y.params.count
  minItems : x.minItems = y.minItems
  maxItems : x.maxItems = y.maxItems

theorem SameArity.symm (same : x.SameArity y) : y.SameArity x :=
  ⟨same.kind.symm, same.params.symm, same.minItems.symm, same.maxItems.symm⟩

theorem SameArity.trans (first : x.SameArity y) (next : y.SameArity z) : x.SameArity z :=
  ⟨first.kind.trans next.kind, first.params.trans next.params,
    first.minItems.trans next.minItems, first.maxItems.trans next.maxItems⟩

theorem Matches.sameArity {R : α → β → Prop} (agree : x.Matches Eq R y) : x.SameArity y :=
  ⟨agree.kind, agree.params.count, agree.minItems, agree.maxItems⟩

theorem Matches.isSome_spread {R : α → β → Prop} (agree : x.Matches Eq R y) :
    x.spread.isSome = y.spread.isSome := by
  have spread := agree.spread
  cases left : x.spread <;> cases right : y.spread <;> rw [left, right] at spread
  · rfl
  · cases spread
  · cases spread
  · rfl

/-- What an array between two bounds is built from: one need for each place, and one for further
elements, if there may be any. -/
def ofArray (need : α) (further : Option α) (lower : Int) (upper : Option Int) : Form α :=
  match Rule.places lower (upper.getD (-1)) with
  | none => { kind := some .array, params := .one need }
  | some count =>
    { kind := some .tuple, params := .many ((List.replicate count need).map .type)
      minItems := .int lower, maxItems := .bound upper
      spread := if 0 ≤ upper.getD (-1) then none else further }

theorem kind_ofArray (need : α) (further : Option α) :
    (ofArray need further l u).kind = some .array ∨
      (ofArray need further l u).kind = some .tuple := by
  unfold ofArray
  split
  · exact .inl rfl
  · exact .inr rfl

theorem sameArity_ofArray (need : α) (further : Option α) (other : β) (more : Option β) :
    (ofArray need further l u).SameArity (ofArray other more l u) := by
  unfold ofArray
  cases Rule.places l (u.getD (-1)) with
  | none => exact ⟨rfl, rfl, rfl, rfl⟩
  | some count =>
    refine ⟨rfl, ?_, rfl, rfl⟩
    simp [Params.count]

theorem isSome_spread_ofArray (need : α) (further : Option α) (other : β) (more : β) :
    (ofArray need further l u).spread.isSome =
      ((ofArray other (some more) l u).spread.isSome && further.isSome) := by
  unfold ofArray
  cases Rule.places l (u.getD (-1)) with
  | none => rfl
  | some count =>
    by_cases bounded : 0 ≤ u.getD (-1)
    · simp only [if_pos bounded]
      rfl
    · simp only [if_neg bounded]
      rfl

theorem mem_references_ofArray {a need : α} {further : Option α}
    (listed : a ∈ (ofArray need further l u).references) : a = need ∨ a ∈ further := by
  unfold ofArray at listed
  split at listed
  · exact .inl (by simpa [references, Params.types] using listed)
  · simp only [references, Params.types_type, List.append_nil, List.mem_append,
      Option.mem_toList] at listed
    rcases listed with place | spread
    · exact .inl (List.eq_of_mem_replicate place)
    · split at spread
      · cases spread
      · exact .inr spread

end Form

namespace Node

open Rule (places)

theorem typedArrayPlan_laidOut : ((array (some s) (.int l) (.bound u) description).laidOut s l
    (u.getD (-1))).typedArrayPlan = .ofArray (.schema s) (spreadNeed (some s)) l u := by
  unfold laidOut Form.ofArray
  cases places l (u.getD (-1)) with
  | none => rfl
  | some count =>
    have needs : (List.replicate count s).map (fun s => Need.schema s) =
      List.replicate count (.schema s) := List.map_replicate
    by_cases bounded : 0 ≤ u.getD (-1)
    · simp only [typedArrayPlan, schemasPlan, needs, if_pos bounded]
      rfl
    · simp only [typedArrayPlan, schemasPlan, needs, if_neg bounded]
      rfl

theorem categories_laidOut {k : Int} : ((array (some s) (.int l) (.bound u)
    description).laidOut s l k).categories = [.typedArray] := by
  unfold laidOut
  cases places l k with
  | none => rfl
  | some count => cases (if 0 ≤ k then none else some s) <;> rfl

theorem nameable_of_nameless (nameless : n.nameSource? = none) : n.Nameable := by
  unfold Nameable
  rw [nameless]
  nofun

theorem nameSource?_laidOut {k : Int} :
    ((array (some s) (.int l) (.bound u) description).laidOut s l k).nameSource? = none := by
  unfold laidOut
  cases places l k <;> rfl

theorem mem_spreadNeed (listed : need ∈ spreadNeed (some s)) :
    need = .schema s ∨ s = .bool true ∧ need = .any := by
  cases s with
  | bool allowed =>
    cases allowed with
    | true =>
      cases listed
      exact .inr ⟨rfl, rfl⟩
    | false => cases listed
  | bare v => cases listed
  | node j =>
    cases listed
    exact .inl rfl

theorem places?_eq (ordered : ∀ k ∈ u, 0 ≤ k → l ≤ k) :
    places? (u.getD (-1)) (.int l) = some (places l (u.getD (-1))) := by
  have upper : 0 ≤ u.getD (-1) → l ≤ u.getD (-1) := by
    cases u with
    | none => nofun
    | some k => exact ordered k rfl
  generalize u.getD (-1) = k at upper
  unfold places? places
  simp only [Json.number?, Option.bind_some, Rule.less_int, Bool.or_eq_true, decide_eq_true_eq,
    Json.int?, Option.map_some]
  by_cases bounded : 0 ≤ k
  · rw [if_pos (.inr bounded), if_pos bounded, if_neg (Int.not_lt.mpr (upper bounded))]
  · by_cases least : 0 < l
    · rw [if_pos (.inl least), if_neg bounded, if_pos least, if_pos (by omega)]
    · rw [if_neg (by omega), if_neg bounded, if_neg least]

theorem untypedArrayPlan_array (ordered : ∀ k ∈ u, 0 ≤ k → l ≤ k) :
    (array none (.int l) (.bound u) description).untypedArrayPlan =
      .ok (.ofArray .any (some .any) l u) := by
  have least : (array none (.int l) (.bound u) description).minItems.orZero = .int l :=
    Rule.orZero_int l
  have most : (array none (.int l) (.bound u) description).maxItems.int? = u := by
    cases u <;> rfl
  unfold untypedArrayPlan Form.ofArray
  dsimp only
  rw [least, most, places?_eq ordered]
  cases places l (u.getD (-1)) <;> rfl

end Node

/-- The guests of a build are still to be built, or they are built, as far as there is a way to
them. -/
structure Builder.Awaits (c : Builder) (way : Prop) (start done : Builder) : Prop where
  types : 0 < c.types.size
  hosts : way → c.Hosts start ∨ c.Hosts done

namespace Build

section Planned

variable {keeps : Builder → Prop} {plan : Option String → Except Fault (Form Need)}
  {planned : Form Need} {keyName : Option String} {sub : Subbuild}

/-- The type of a node in a category is made after its plan, if whatever it needs can be built. The
needs go on from states that keep something, and in which the type has its place. -/
theorem ensures_planned (absent : b.built.lookup (i, category) = none)
    (nameable : (b.schemas.node i).Nameable)
    (made : (b.schemas.node i).plan i b.fileName category = .ok plan)
    (form : ∀ name, plan name = .ok planned)
    (start : ∀ usedNames definitions, keeps { b.reserved i category with usedNames, definitions })
    (each : ∀ need ∈ planned.references, ∀ c, keeps c →
      Ensures c (need.build sub i) (fun _ later => keeps later) fun _ _ => False)
    (placed : ∀ c, keeps c → b.types.size < c.types.size) :
    Ensures b (inCategory sub i category keyName) (fun t later => ∃ name y,
      later.types.node t = (b.schemas.node i).dress keyName name y ∧
        y.Matches Eq (fun _ _ => True) planned) fun _ _ => False := by
  unfold inCategory
  apply ensures_built
  rw [absent]
  apply ensures_reserve
  have shaped : Ensures (b.reserved i category) (shape sub i category keyName)
      (fun n later => keeps later ∧ ∃ name y, n = (b.schemas.node i).dress keyName name y ∧
        y.Matches Eq (fun _ _ => True) planned) fun _ _ => False := by
    rw [shape_eq_prepare]
    have prepared : Ensures (b.reserved i category) (prepare i category keyName)
        (fun r later => keeps later ∧ r.1 = b.schemas.node i ∧ r.2.2 = planned)
        fun _ _ => False := by
      refine ensures_prepare rfl (fun plan' name y usedNames definitions _ again found => ?_)
        fun e _ _ wrong => ?_
      · cases made.symm.trans again
        rw [form, Except.ok.injEq] at found
        exact ⟨start usedNames definitions, rfl, found.symm⟩
      · rcases wrong with refused | ⟨nameless, _⟩ | ⟨plan', name, again, refused⟩
        · cases made.symm.trans refused
        · exact nameless nameable
        · cases made.symm.trans again
          cases (form name).symm.trans refused
    apply prepared.bind
    rintro ⟨n, name, needs⟩ c ⟨kept, rfl, rfl⟩
    have steps : ∀ need ∈ needs.references, ∀ (_ : List Need) (_ : List TypeId) d, keeps d →
        Ensures d (need.build sub i) (fun _ later => keeps later) fun _ _ => False :=
      fun need listed _ _ => each need listed
    apply Ensures.bind (ensures_traverse steps kept)
    rintro y d ⟨kept, agree⟩
    exact ensures_pure ⟨kept, name, y, rfl, agree⟩
  apply shaped.bind
  rintro _ c ⟨kept, name, y, rfl, agree⟩
  apply ensures_fill
  exact ensures_pure ⟨name, y, TypeGraph.node_set_self (placed c kept) _, agree⟩

end Planned

/-- The type of a root of one category is made after its plan, if whatever it needs can be built. -/
theorem typeOf_planned (fileName : Option String) (keeps : Builder → Prop) {planned : Form Need}
    {plan : Option String → Except Fault (Form Need)}
    (single : (h.node 0).categories = [category]) (nameable : (h.node 0).Nameable)
    (made : (h.node 0).plan 0 fileName category = .ok plan) (form : ∀ name, plan name = .ok planned)
    (start : ∀ usedNames definitions, keeps { schemas := h, types := .push .empty {}, fileName
                                              built := [((0, category), 0)], usedNames, definitions
                                              root := some 0 })
    (each : ∀ need ∈ planned.references, ∀ fuel, depth h = fuel + 1 → ∀ c, keeps c →
      Ensures c (need.build (levels fuel) 0) (fun _ later => keeps later) fun _ _ => False)
    (placed : ∀ c, keeps c → 0 < c.types.size) :
    ∃ t later, typeOf (.node 0) none (.fresh h .empty fileName) = .ok t later ∧
      (later.types.node t).comment = (h.node 0).description ∧
        (later.types.node t).form.Matches Eq (fun _ _ => True) planned := by
  obtain ⟨fuel, enough⟩ : ∃ fuel, depth h = fuel + 1 := ⟨_, rfl⟩
  have outcome : Ensures (.fresh h .empty fileName) (levels (fuel + 1) (.node 0) none)
      (fun t later => ∃ name y, later.types.node t = (h.node 0).dress none name y ∧
        y.Matches Eq (fun _ _ => True) planned) fun _ _ => False := by
    apply ensures_noteRoot
    apply ensures_schema
    split
    · rename_i only
      cases single.symm.trans only
      exact ensures_planned rfl nameable made form start
        (fun need listed c kept => each need listed fuel enough c kept) placed
    · rename_i several
      exact absurd single (several category)
  rw [← enough] at outcome
  obtain ⟨t, later, run, name, y, made, agree⟩ := outcome.exists_ok
  refine ⟨t, later, run, ?_⟩
  rw [made]
  exact ⟨rfl, agree⟩

theorem ensures_addType {n : TypeNode} {good : TypeId → Builder → Prop}
    {bad : Fault → Builder → Prop} (holds : good b.types.size { b with types := b.types.push n }) :
    Ensures b (addType n) good bad := holds

/-- The type of an array that is laid out for its items is made after its bounds, if the type of the
items can be built. -/
theorem typeOf_typed (fileName : Option String) (keeps : Builder → Prop)
    (laid : h.node 0 = (Node.array (some s) (.int l) (.bound u) description).laidOut s l
      (u.getD (-1)))
    (start : ∀ usedNames definitions, keeps { schemas := h, types := .push .empty {}, fileName
                                              built := [((0, .typedArray), 0)], usedNames
                                              definitions, root := some 0 })
    (item : (h.node 0).Offers (.schema s) → ∀ fuel, depth h = fuel + 1 → ∀ c, keeps c →
      Ensures c (levels fuel s none) (fun _ later => keeps later) fun _ _ => False)
    (anything : s = .bool true → ∀ c n, keeps c → keeps { c with types := c.types.push n })
    (placed : ∀ c, keeps c → 0 < c.types.size) :
    ∃ t later, typeOf (.node 0) none (.fresh h .empty fileName) = .ok t later ∧
      (later.types.node t).comment = (h.node 0).description ∧
        (later.types.node t).form.Matches Eq (fun _ _ => True)
          (.ofArray (.schema s) (Node.spreadNeed (some s)) l u) := by
  have nameable : (h.node 0).Nameable := by
    refine Node.nameable_of_nameless ?_
    rw [laid, Node.nameSource?_laidOut]
  have single : (h.node 0).categories = [.typedArray] := by rw [laid, Node.categories_laidOut]
  have form : (h.node 0).typedArrayPlan = .ofArray (.schema s) (Node.spreadNeed (some s)) l u := by
    rw [laid, Node.typedArrayPlan_laidOut]
  refine typeOf_planned fileName keeps single nameable rfl (fun _ => congrArg Except.ok form) start
    (fun need listed fuel enough c kept => ?_) placed
  have needs : need = .schema s ∨ s = .bool true ∧ need = .any := by
    rcases Form.mem_references_ofArray listed with same | further
    · exact .inl same
    · exact Node.mem_spreadNeed further
  rcases needs with rfl | ⟨rfl, rfl⟩
  · rw [← form] at listed
    have formed : (h.node 0).formIn .typedArray =
      some ((h.node 0).typedArrayPlan.map (Need.subject (h.node 0))) :=
        congrArg some Node.map_typedArrayPlan.symm
    exact item (Node.offers_of_need formed listed) fuel enough c kept
  · exact ensures_addType (anything rfl c _ kept)

/-- From the start, the place of the type of the root is all that is remembered. -/
theorem hosts_reserved (hosts : h.Hosts g) {usedNames : UsedNames}
    {definitions : DefinitionsCache} :
    Builder.Hosts { schemas := h, types := .push .empty {}, fileName, usedNames, definitions
                    built := [((0, category), 0)], root := some 0 } (.fresh g .empty fileName) where
  schemas := hosts
  built _ _ := rfl
  stripped := rfl
  narrowed := rfl
  types := Nat.one_pos

/-- A guest can be built where it was not built before, and is found again where it was. -/
theorem ensures_hosted (closed : g.Closed) (inside : r < g.size) {fuel : Nat}
    (enough : depth g ≤ fuel) (run : typeOf (.node r) none (.fresh g .empty fileName) = .ok t b)
    (hosts : c.Hosts (.fresh g .empty fileName) ∨ c.Hosts b) :
    Ensures c (levels fuel (.node (r + 1)) none) (fun _ later => later.Hosts b)
      fun _ _ => False := by
  have below : Subschema.Below g.size (.node r) := inside
  obtain ⟨continues, stands⟩ := stands_typeOf closed below run
  have again := level_remembered (levels 0) continues.sound.builtOnce stands.2.2.2 none
  rcases hosts with first | later
  · obtain ⟨_, d, ran, hosts, _⟩ := hosted_levels enough (.node r) none none _ c t b first run
    exact ensures_of_ok ran hosts
  · have some : 1 ≤ fuel := Nat.le_trans (Nat.succ_le_of_lt (Nat.succ_pos _)) enough
    obtain ⟨_, d, ran, hosts, _⟩ := hosted_levels some (.node r) none none b c t _ later again
    exact ensures_of_ok ran { hosts with }

/-- What an accepted document comes to on the way to its type. -/
theorem exists_of_compile {d : Document} {fields : Entries Json} (object : d.root = .obj fields)
    (run : compile d options ({ fileName } : Builder) = .ok t b) :
    ∃ root g g', d.ingest .empty = .ok root g ∧
      Graph.normalize options fileName root g = .ok () g' ∧ g'.Closed ∧ root < g'.size ∧
        typeOf (.node root) none (.fresh g' .empty fileName) = .ok t b := by
  have ends := d.ingest_ends .empty
  cases accepted : d.ingest .empty with
  | error e g =>
    obtain ⟨f, c, failed⟩ := compile_refused (by rw [object]; rfl) accepted options fileName
    cases run.symm.trans failed
  | ok root g =>
    rw [accepted] at ends
    obtain ⟨start, met, _, depicted⟩ := ends
    obtain ⟨p, first⟩ := depicted.made_of_reaches .refl
    have inside := depicted.lt_size first
    have proper := Graph.proper_of_ingest Graph.Documented.empty.proper accepted
    rw [compile_ingested object accepted, compileNode_fresh] at run
    split at run
    · rename_i g' normalized
      have kept := (Graph.applyRules_ok Rule.all_shrink normalized).1
      exact ⟨root, g, g', rfl, normalized,
        (proper.applyRules (fun _ listed => listed) normalized).closed, kept ▸ inside, run⟩
    · cases run

/-- Builds of arrays, once their graphs are normalized. -/
theorem compile_array {items : Option Json}
    (accepted : (Document.array items lower upper parts).ingest .empty = .ok 0 g)
    (normalized : Graph.normalize options fileName 0 g = .ok () h) :
    compile (.array items lower upper parts) options ({ fileName } : Builder) =
      typeOf (.node 0) none (.fresh h .empty fileName) := by
  rw [compile_ingested rfl accepted, compileNode_fresh, normalized]

variable (ordered : ∀ l ∈ lower, ∀ u ∈ upper, 0 ≤ u → l ≤ u)
include ordered

/-- An array of anything is made after its bounds. -/
theorem compile_untyped (options : Options) (fileName : Option String) (parts : Entries Json) :
    ∃ t later, compile (.array none lower upper parts) options ({ fileName } : Builder) =
        .ok t later ∧ (later.types.node t).comment = Rule.boundNote lower upper ∧
      (later.types.node t).form.Matches Eq (fun _ _ => True) (.ofArray Need.any (some .any)
        (Rule.settled options lower upper).1 (Rule.settled options lower upper).2) := by
  obtain ⟨h, normalized, first⟩ :=
    Graph.normalize_alone_array options fileName none nofun Rule.pass_untyped
  have planned : (h.node 0).untypedArrayPlan = .ok (.ofArray .any (some .any)
      (Rule.settled options lower upper).1 (Rule.settled options lower upper).2) := by
    rw [first]
    exact Node.untypedArrayPlan_array fun u given => Rule.settled_ordered ordered given
  have single : (h.node 0).categories = [.untypedArray] := by
    rw [first]
    rfl
  have nameless : (h.node 0).nameSource? = none := by
    rw [first]
    rfl
  have anything : ∀ need ∈ (Form.ofArray Need.any (some .any) (Rule.settled options lower upper).1
      (Rule.settled options lower upper).2).references, need = .any := by
    intro need listed
    rcases Form.mem_references_ofArray listed with same | same
    · exact same
    · exact (Option.some.inj same).symm
  obtain ⟨t, later, run, comment, agree⟩ := typeOf_planned fileName (fun c => 0 < c.types.size)
    single (Node.nameable_of_nameless nameless) rfl (fun _ => planned) (fun _ _ => Nat.one_pos)
    (fun need listed fuel _ c kept => anything need listed ▸ ensures_addType (by simp))
    fun _ kept => kept
  refine ⟨t, later, (compile_array Document.ingest_untyped normalized).trans run, ?_, agree⟩
  rw [comment, first]
  rfl

/-- An array with a schema for its items is made after its bounds too, if the schema compiles. -/
theorem compile_typed
    (compiles : ∃ t b, compile ⟨v, parts⟩ options ({ fileName } : Builder) = .ok t b) :
    ∃ s t later, compile (.array (some v) lower upper parts) options ({ fileName } : Builder) =
        .ok t later ∧ ((Node.spreadNeed (some s)).isSome = true ↔ v ≠ .bool false) ∧
      (later.types.node t).comment = Rule.boundNote lower upper ∧
      (later.types.node t).form.Matches Eq (fun _ _ => True) (.ofArray (Need.schema s)
        (Node.spreadNeed (some s))
        (Rule.settled options lower upper).1 (Rule.settled options lower upper).2) := by
  obtain ⟨t, b, run⟩ := compiles
  cases v with
  | bool allowed =>
    obtain ⟨h, normalized, first⟩ := Graph.normalize_alone_array options fileName
      (some (.bool allowed)) nofun (Rule.pass_typed ordered)
    obtain ⟨k, enough⟩ : ∃ k, depth h = k + 2 := ⟨_, rfl⟩
    have item : (h.node 0).Offers (.schema (.bool allowed)) → ∀ fuel, depth h = fuel + 1 →
        ∀ c : Builder, 0 < c.types.size → Ensures c (levels fuel (.bool allowed) none)
          (fun _ later => 0 < later.types.size) fun _ _ => False := by
      intro _ fuel deep c _
      obtain rfl : fuel = k + 1 := by omega
      exact ensures_addType (by simp)
    obtain ⟨t, later, run, comment, agree⟩ := typeOf_typed fileName (fun c => 0 < c.types.size)
      first (fun _ _ => Nat.one_pos) item (fun _ c n kept => by simp) fun _ kept => kept
    refine ⟨.bool allowed, t, later,
      (compile_array (Document.ingest_boolean allowed) normalized).trans run, ?_, ?_, agree⟩
    · cases allowed <;> simp [Node.spreadNeed]
    · rw [comment, first, Node.description_laidOut]
      rfl
  | obj fields =>
    obtain ⟨root, g, g', accepted, normalized, closed, inside, built⟩ := exists_of_compile rfl run
    obtain ⟨h, taken, hosts, node⟩ := Document.ingest_hosts accepted
    obtain ⟨h', ran, first, hosts'⟩ := Graph.normalize_array normalized node hosts.inside
      (fun j given => ⟨Subschema.node.inj (Option.some.inj given.symm), hosts⟩)
      (Rule.pass_typed ordered)
    rw [← first] at hosts'
    have item : (h'.node 0).Offers (.schema (.node (root + 1))) → ∀ fuel, depth h' = fuel + 1 →
        ∀ c : Builder, c.Awaits ((h'.node 0).LeadsTo (root + 1)) (.fresh g' .empty fileName) b →
        Ensures c (levels fuel (.node (root + 1)) none)
          (fun _ later => later.Awaits ((h'.node 0).LeadsTo (root + 1))
            (.fresh g' .empty fileName) b) fun _ _ => False := by
      intro offered fuel deep c kept
      have leads := Node.leadsTo_iff.mpr offered
      have less := depth_lt_of_hosts (hosts' leads)
      refine (ensures_hosted closed inside (by omega) built (kept.hosts leads)).mono ?_
      exact fun _ later hosts => ⟨Nat.zero_lt_of_lt hosts.types, fun _ => .inr hosts⟩
    obtain ⟨t, later, run, comment, agree⟩ := typeOf_typed fileName
      (fun c => c.Awaits ((h'.node 0).LeadsTo (root + 1)) (.fresh g' .empty fileName) b) first
      (fun _ _ => ⟨Nat.one_pos, fun leads => .inl (hosts_reserved (hosts' leads))⟩) item
      nofun fun _ kept => kept.types
    refine ⟨.node (root + 1), t, later, (compile_array taken ran).trans run, ?_, ?_, agree⟩
    · simp [Node.spreadNeed]
    · rw [comment, first, Node.description_laidOut]
      rfl
  | _ => cases run

/-- Arrays with a schema for their items and arrays of anything have the same number of places
between the same bounds: they are arrays or tuples alike, described alike, with as many parts.
Further elements have a type in both or in none, except that where no item is admitted there is no
type for further ones. -/
theorem compile_sameArity
    (compiles : ∃ t b, compile ⟨v, parts⟩ options ({ fileName } : Builder) = .ok t b) :
    ∃ t b u c,
      compile (.array (some v) lower upper parts) options ({ fileName } : Builder) = .ok t b ∧
      compile (.array none lower upper parts) options ({ fileName } : Builder) = .ok u c ∧
      ((b.types.node t).kind = some .array ∨ (b.types.node t).kind = some .tuple) ∧
      (b.types.node t).form.SameArity (c.types.node u).form ∧
      (b.types.node t).comment = (c.types.node u).comment ∧
      ((b.types.node t).spread.isSome = true ↔
        (c.types.node u).spread.isSome = true ∧ v ≠ .bool false) := by
  obtain ⟨s, t, b, typed, admits, comment, agree⟩ := compile_typed ordered compiles
  obtain ⟨u, c, untyped, comment', agree'⟩ := compile_untyped ordered options fileName parts
  refine ⟨t, b, u, c, typed, untyped, ?_, ?_, comment.trans comment'.symm, ?_⟩
  · have kind := agree.kind
    show (b.types.node t).form.kind = _ ∨ (b.types.node t).form.kind = _
    rw [kind]
    exact Form.kind_ofArray _ _
  · exact (agree.sameArity.trans (Form.sameArity_ofArray _ _ _ _)).trans agree'.sameArity.symm
  · have spread : (b.types.node t).spread.isSome =
        ((c.types.node u).spread.isSome && (Node.spreadNeed (some s)).isSome) := by
      refine (agree.isSome_spread.trans ?_).trans
        (congrArg (· && (Node.spreadNeed (some s)).isSome) agree'.isSome_spread.symm)
      exact Form.isSome_spread_ofArray _ _ _ _
    rw [spread, Bool.and_eq_true, admits]

omit ordered

/-- Trees that have nothing but other trees below them. -/
def trees : Entries Json :=
  [("tree", .obj [("type", .str "array"), ("items", .obj [("$link", .str "tree")])])]

theorem compile_trees : ∃ t b u c,
    compile (.array (some (.obj [("$link", .str "tree")])) (some 2) (some (-1)) trees) {}
      ({ fileName := some "t.json" } : Builder) = .ok t b ∧
    compile (.array none (some 2) (some (-1)) trees) {} ({ fileName := some "t.json" } : Builder) =
      .ok u c ∧
    (b.types.node t).form.SameArity (c.types.node u).form ∧
    (b.types.node t).comment = (c.types.node u).comment ∧
    ((b.types.node t).spread.isSome = true ↔ (c.types.node u).spread.isSome = true) := by
  have compiles := exists_of_succeeds (show succeeds (compile ⟨.obj [("$link", .str "tree")], trees⟩
    {} ({ fileName := some "t.json" } : Builder)) = true by decide +kernel)
  have ordered : ∀ l ∈ some (2 : Int), ∀ u ∈ some (-1 : Int), 0 ≤ u → l ≤ u := by simp
  obtain ⟨t, b, u, c, typed, untyped, _, same, comment, spread⟩ :=
    compile_sameArity ordered compiles
  exact ⟨t, b, u, c, typed, untyped, same, comment, spread.trans (and_iff_left nofun)⟩

/-- A tuple of anything goes on with anything, but one whose items are never admitted does not go
on, though it has as many places and no upper bound either. -/
theorem compile_never : ∃ t b u c,
    succeeds (compile ⟨.bool false, []⟩ {} ({ fileName := some "t.json" } : Builder)) = true ∧
    compile (.array (some (.bool false)) (some 1) none []) {}
      ({ fileName := some "t.json" } : Builder) = .ok t b ∧
    compile (.array none (some 1) none []) {} ({ fileName := some "t.json" } : Builder) = .ok u c ∧
    (b.types.node t).kind = some .tuple ∧ (c.types.node u).kind = some .tuple ∧
    (b.types.node t).spread = none ∧ (c.types.node u).spread.isSome = true := by
  obtain ⟨t, b, typed, never⟩ := exists_of_endsIn (show endsIn (fun t b =>
      decide ((b.types.node t).kind = some .tuple ∧ (b.types.node t).spread = none))
    (compile (.array (some (.bool false)) (some 1) none []) {}
      ({ fileName := some "t.json" } : Builder)) = true by decide +kernel)
  obtain ⟨u, c, untyped, further⟩ := exists_of_endsIn (show endsIn (fun u c =>
      decide ((c.types.node u).kind = some .tuple ∧ (c.types.node u).spread.isSome = true))
    (compile (.array none (some 1) none []) {} ({ fileName := some "t.json" } : Builder)) = true by
      decide +kernel)
  obtain ⟨tuple, ends⟩ := of_decide_eq_true never
  obtain ⟨tuple', goes⟩ := of_decide_eq_true further
  exact ⟨t, b, u, c, rfl, typed, untyped, tuple, tuple', ends, goes⟩

end Build
end LinkedSchema
