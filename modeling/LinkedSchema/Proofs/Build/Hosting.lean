import LinkedSchema.Proofs.Build.Bounds
import LinkedSchema.Proofs.Build.Outcomes
import LinkedSchema.Proofs.Build.Renumbering
import LinkedSchema.Proofs.Schema.Hosting
/-! Builds that host other builds. On a graph that hosts another one, the types of the guests can be
built wherever they can be built by themselves. -/
namespace LinkedSchema

variable {b c : Builder} {i : NodeId} {n m : Node} {category : Category} {α β γ δ : Type}
  {keyName other : Option String}

section References

variable {k : Type → Type} [Monad k] [LawfulMonad k] (f : α → k β)

theorem Part.type?_traverse (p : Part α) :
    (·.type?.toList) <$> p.traverse f = p.type?.toList.mapM f := by
  cases p <;> simp [traverse, Member.traverse, type?]

theorem Part.types_traverse (parts : List (Part α)) :
    List.filterMap type? <$> parts.mapM (traverse f) = (parts.filterMap type?).mapM f := by
  induction parts with
  | nil => simp
  | cons p parts ih =>
    rw [types_cons, List.mapM_append, ← type?_traverse, ← ih]
    simp [types_cons]

theorem Params.types_traverse (p : Params α) : types <$> p.traverse f = p.types.mapM f := by
  cases p with
  | one a => simp [traverse, types]
  | value v => simp [traverse, types]
  | many parts =>
    show _ = (parts.filterMap Part.type?).mapM f
    rw [← Part.types_traverse]
    simp [traverse, types]

/-- A traversal goes through all that a form refers to, in order. -/
theorem Form.references_traverse (x : Form α) :
    references <$> x.traverse f = x.references.mapM f := by
  have spread (s : Option α) : Option.toList <$> s.mapM f = s.toList.mapM f := by
    cases s <;> simp
  unfold references
  rw [List.mapM_append, List.mapM_append, ← Params.types_traverse, ← spread]
  simp [traverse]

end References

namespace Builder

/-- The build that hosts another one has types and copies for the same nodes of the guests. -/
structure Hosts (c b : Builder) : Prop where
  schemas : c.schemas.Hosts b.schemas
  built : ∀ i category,
    (c.built.lookup (i + 1, category)).isSome = (b.built.lookup (i, category)).isSome
  stripped : c.stripped = b.stripped.map fun e => (e.1 + 1, e.2 + 1)
  narrowed : c.narrowed = b.narrowed.map fun e => ((e.1.1 + 1, e.1.2), e.2 + 1)
  types : b.types.size < c.types.size

namespace Hosts

theorem lookup_stripped (hosts : c.Hosts b) (i : NodeId) :
    c.stripped.lookup (i + 1) = (b.stripped.lookup i).map (· + 1) := by
  rw [hosts.stripped]
  exact lookup_map (fun _ _ => Nat.succ.inj) (· + 1) _ _

theorem find_narrowed (hosts : c.Hosts b) (i : NodeId) (type : Json) :
    (c.narrowed.find? fun e => e.1.1 == i + 1 && e.1.2.alike type).map (·.2) =
      (b.narrowed.find? fun e => e.1.1 == i && e.1.2.alike type).map (·.2 + 1) := by
  have same (e : (NodeId × Json) × NodeId) : (e.1.1 + 1 == i + 1) = (e.1.1 == i) := by
    simp
  rw [hosts.narrowed, List.find?_map, Option.map_map]
  simp only [Function.comp_def, same]

end Hosts
end Builder

namespace Build

/-- Wherever the first step succeeds, the second one does in a build that hosts the first one, and
the results are related. -/
def Shadows (R : α → β → Prop) (x : Build α) (y : Build β) : Prop :=
  ∀ b c a b', c.Hosts b → x b = .ok a b' → ∃ a' c', y c = .ok a' c' ∧ c'.Hosts b' ∧ R a a'

variable {R : α → β → Prop} {S : γ → δ → Prop} {x : Build α} {y : Build β}

theorem shadows_pure {a : α} {a' : β} (related : R a a') : Shadows R (pure a) (pure a') := by
  rintro b c _ _ hosts run
  cases run
  exact ⟨a', c, rfl, hosts, related⟩

theorem shadows_throw (e : Fault) (y : Build β) : Shadows R (throw e) y :=
  fun _ _ _ _ _ run => by cases run

theorem Shadows.bind {next : α → Build γ} {last : β → Build δ} (first : Shadows R x y)
    (rest : ∀ a a', R a a' → Shadows S (next a) (last a')) :
    Shadows S (x >>= next) (y >>= last) := by
  intro b c r b'' hosts run
  replace run : EStateM.bind x next b = .ok r b'' := run
  unfold EStateM.bind at run
  split at run
  · rename_i a b' half
    obtain ⟨a', c', here, hosts', related⟩ := first b c a b' hosts half
    obtain ⟨r', c'', there, hosts'', results⟩ := rest a a' related b' c' r b'' hosts' run
    refine ⟨r', c'', ?_, hosts'', results⟩
    show EStateM.bind y last c = _
    unfold EStateM.bind
    rw [here]
    exact there
  · cases run

/-- The results are of no account. -/
abbrev Hosted (x : Build α) (y : Build β) : Prop := Shadows (fun _ _ => True) x y

theorem hosted_addType (n m : TypeNode) : Hosted (addType n) (addType m) := by
  rintro b c _ _ hosts run
  cases run
  exact ⟨_, _, rfl, { hosts with types := by simpa using hosts.types }, trivial⟩

/-- What types are set to is of no account. -/
theorem hosted_set (t u : TypeId) (f g : Builder → TypeNode) :
    Hosted (modify fun b => { b with types := b.types.set t (f b) })
      (modify fun b => { b with types := b.types.set u (g b) }) := by
  rintro b c _ _ hosts run
  cases run
  exact ⟨_, _, rfl, { hosts with types := by simpa using hosts.types }, trivial⟩

theorem hosted_addNote (t u : TypeId) (note another : String) :
    Hosted (addNote t note) (addNote u another) := hosted_set t u _ _

theorem hosted_fill (t u : TypeId) (n m : TypeNode) : Hosted (fill t n) (fill u m) :=
  hosted_set t u _ _

theorem hosted_setParams (t u : TypeId) (params others : Params) :
    Hosted (setParams t params) (setParams u others) := hosted_set t u _ _

theorem hosted_noteRoot (i j : NodeId) : Hosted (noteRoot i) (noteRoot j) := by
  rintro b c _ _ hosts run
  cases run
  exact ⟨_, _, rfl, { hosts with }, trivial⟩

theorem hosted_reserve (i : NodeId) (category : Category) :
    Hosted (reserve i category) (reserve (i + 1) category) := by
  rintro b c _ _ hosts run
  cases run
  refine ⟨_, _, rfl, { hosts with built := fun j other => ?_, types := by simpa using hosts.types },
    trivial⟩
  have same : ((j + 1, other) == (i + 1, category)) = ((j, other) == (i, category)) := by
    rw [Bool.eq_iff_iff]
    simp
  show (List.lookup _ (_ :: c.built)).isSome = (List.lookup _ (_ :: b.built)).isSome
  rw [List.lookup_cons, List.lookup_cons, same]
  cases (j, other) == (i, category) with
  | true => rfl
  | false => exact hosts.built j other

theorem shadows_built (i : NodeId) (category : Category) :
    Shadows (fun found found' => found'.isSome = found.isSome) (built? i category)
      (built? (i + 1) category) := by
  rintro b c _ _ hosts run
  cases run
  exact ⟨_, c, rfl, hosts, hosts.built i category⟩

theorem shadows_schema (i : NodeId) :
    Shadows (fun n m => m.Echoes (· + 1) n) (schema i) (schema (i + 1)) := by
  rintro b c _ _ hosts run
  cases run
  exact ⟨_, c, rfl, hosts, hosts.schemas.node i⟩

theorem hosted_definitionKey (i j : NodeId) : Hosted (definitionKey i) (definitionKey j) := by
  intro b c key b' hosts run
  have left : Ensures b (definitionKey i) (fun _ b' => ∃ definitions, b' = { b with definitions })
      fun _ _ => True := ensures_definitionKey fun _ definitions => ⟨definitions, rfl⟩
  have right : Ensures c (definitionKey j) (fun _ c' => ∃ definitions, c' = { c with definitions })
      fun _ _ => False := ensures_definitionKey fun _ definitions => ⟨definitions, rfl⟩
  obtain ⟨_, rfl⟩ := left.ok run
  obtain ⟨key', _, ran, _, rfl⟩ := right.exists_ok
  exact ⟨key', _, ran, { hosts with }, trivial⟩

theorem hosted_standaloneName (echoes : m.Echoes (· + 1) n) (key other : Option String) :
    Hosted (standaloneName n key) (standaloneName m other) := by
  intro b c name b' hosts run
  obtain ⟨p, rfl⟩ := echoes
  have left : Ensures b (standaloneName n key)
      (fun _ b' => n.Nameable ∧ ∃ usedNames, b' = { b with usedNames }) fun _ _ => True :=
    ensures_standaloneName (fun nameable => ⟨nameable, _, rfl⟩)
      (fun nameable _ => ⟨nameable, _, rfl⟩) fun _ => trivial
  obtain ⟨nameable, _, rfl⟩ := left.ok run
  have right : Ensures c (standaloneName (n.renumber (· + 1) p) other)
      (fun _ c' => ∃ usedNames, c' = { c with usedNames }) fun _ _ => False :=
    ensures_standaloneName (fun _ => ⟨_, rfl⟩) (fun _ _ => ⟨_, rfl⟩)
      fun nameless => nameless nameable
  obtain ⟨name', _, ran, _, rfl⟩ := right.exists_ok
  exact ⟨name', _, ran, { hosts with }, trivial⟩

/-- What a type is made after needs the same of the guests. -/
theorem shadows_prepare (i : NodeId) (category : Category) (keyName other : Option String) :
    Shadows (fun x y => List.Forall₂ (Need.Follows (· + 1)) x.2.2.references y.2.2.references)
      (prepare i category keyName) (prepare (i + 1) category other) := by
  intro b c x b' hosts run
  obtain ⟨p, echo⟩ := hosts.schemas.node i
  generalize here : b.schemas.node i = n at echo
  have left : Ensures b (prepare i category keyName) (fun x b' => n.Nameable ∧
      (∃ usedNames definitions, b' = { b with usedNames, definitions }) ∧
      ∃ plan, n.plan i b.fileName category = .ok plan ∧ plan x.2.1 = .ok x.2.2)
      fun _ _ => True :=
    ensures_prepare here (fun plan _ _ _ _ nameable planned made =>
      ⟨nameable, ⟨_, _, rfl⟩, plan, planned, made⟩) fun _ _ _ _ => trivial
  obtain ⟨nameable, ⟨_, _, rfl⟩, plan, planned, made⟩ := left.ok run
  obtain ⟨plan', planned', all⟩ :=
    Node.plan_renumber (f := (· + 1)) (p := p) planned made (i + 1) c.fileName
  have right : Ensures c (prepare (i + 1) category other) (fun y c' =>
      (∃ usedNames definitions, c' = { c with usedNames, definitions }) ∧
      List.Forall₂ (Need.Follows (· + 1)) x.2.2.references y.2.2.references)
      fun _ _ => False := by
    refine ensures_prepare echo (fun plan name form _ _ _ planned made => ?_)
      fun e _ _ wrong => ?_
    · rw [planned', Except.ok.injEq] at planned
      obtain ⟨y, made', follows⟩ := all name
      rw [planned, made, Except.ok.injEq] at made'
      exact ⟨⟨_, _, rfl⟩, made' ▸ follows⟩
    · rcases wrong with refused | ⟨nameless, _⟩ | ⟨plan, name, planned, refused⟩
      · cases planned'.symm.trans refused
      · exact nameless nameable
      · rw [planned', Except.ok.injEq] at planned
        obtain ⟨y, made', _⟩ := all name
        cases made'.symm.trans (planned ▸ refused)
  obtain ⟨y, _, ran, ⟨_, _, rfl⟩, follows⟩ := right.exists_ok
  exact ⟨y, _, ran, { hosts with }, follows⟩

theorem shadows_strip (i : NodeId) :
    Shadows (fun copy copy' => copy' = copy + 1) (strip i) (strip (i + 1)) := by
  intro b c copy b' hosts run
  have known := hosts.lookup_stripped i
  have left : Ensures b (strip i) (fun copy b' => (b.stripped.lookup i = some copy ∧ b' = b) ∨
      (b.stripped.lookup i = none ∧ copy = b.schemas.size ∧ b' = { b with
        schemas := b.schemas.push (b.schemas.node i).unnamed
        stripped := (i, b.schemas.size) :: b.stripped })) fun _ _ => True :=
    ensures_strip (fun _ found => .inl ⟨found, rfl⟩) fun absent => .inr ⟨absent, rfl, rfl⟩
  rcases left.ok run with ⟨found, rfl⟩ | ⟨absent, rfl, rfl⟩
  · rw [found] at known
    have right : Ensures c (strip (i + 1)) (fun copy' c' => copy' = copy + 1 ∧ c' = c)
        fun _ _ => False := by
      refine ensures_strip (fun copy' found => ?_) fun absent => ?_
      · rw [known, Option.map_some, Option.some.injEq] at found
        exact ⟨found.symm, rfl⟩
      · cases known.symm.trans absent
    obtain ⟨_, _, ran, rfl, rfl⟩ := right.exists_ok
    exact ⟨_, _, ran, hosts, rfl⟩
  · rw [absent] at known
    have right : Ensures c (strip (i + 1)) (fun copy' c' => copy' = c.schemas.size ∧ c' = { c with
        schemas := c.schemas.push (c.schemas.node (i + 1)).unnamed
        stripped := (i + 1, c.schemas.size) :: c.stripped }) fun _ _ => False := by
      refine ensures_strip (fun copy' found => ?_) fun _ => ⟨rfl, rfl⟩
      cases known.symm.trans found
    obtain ⟨_, _, ran, rfl, rfl⟩ := right.exists_ok
    refine ⟨_, _, ran, { hosts with schemas := hosts.schemas.push ?_, stripped := ?_ },
      hosts.schemas.size⟩
    · obtain ⟨p, echo⟩ := hosts.schemas.node i
      exact ⟨p, congrArg Node.unnamed echo⟩
    · rw [hosts.stripped, hosts.schemas.size]
      rfl

theorem shadows_narrow (i : NodeId) (type : Json) :
    Shadows (fun copy copy' => copy' = copy + 1) (narrow i type) (narrow (i + 1) type) := by
  intro b c copy b' hosts run
  have known := hosts.find_narrowed i type
  have left : Ensures b (narrow i type) (fun copy b' => type.isArr = false ∧ type.isObj = false ∧
      ((∃ e, b.narrowed.find? (fun e => e.1.1 == i && e.1.2.alike type) = some e ∧ copy = e.2 ∧
        b' = b) ∨
      (b.narrowed.find? (fun e => e.1.1 == i && e.1.2.alike type) = none ∧
        copy = b.schemas.size ∧ b' = { b with
          schemas := b.schemas.push ((b.schemas.node i).ofType type)
          narrowed := ((i, type), b.schemas.size) :: b.narrowed }))) fun _ _ => True :=
    ensures_narrow (fun _ => trivial)
      (fun e found list object => ⟨list, object, .inl ⟨e, found, rfl, rfl⟩⟩)
      fun absent list object => ⟨list, object, .inr ⟨absent, rfl, rfl⟩⟩
  obtain ⟨list, object, outcome⟩ := left.ok run
  have plain : (type.isArr || type.isObj) ≠ true := by simp [list, object]
  rcases outcome with ⟨e, found, rfl, rfl⟩ | ⟨absent, rfl, rfl⟩
  · rw [found] at known
    have right : Ensures c (narrow (i + 1) type) (fun copy' c' => copy' = e.2 + 1 ∧ c' = c)
        fun _ _ => False := by
      refine ensures_narrow plain (fun e' found _ _ => ?_) fun absent _ _ => ?_
      · rw [found, Option.map_some, Option.map_some, Option.some.injEq] at known
        exact ⟨known, rfl⟩
      · rw [absent] at known
        cases known
    obtain ⟨_, _, ran, rfl, rfl⟩ := right.exists_ok
    exact ⟨_, _, ran, hosts, rfl⟩
  · rw [absent] at known
    have right : Ensures c (narrow (i + 1) type) (fun copy' c' => copy' = c.schemas.size ∧
        c' = { c with
          schemas := c.schemas.push ((c.schemas.node (i + 1)).ofType type)
          narrowed := ((i + 1, type), c.schemas.size) :: c.narrowed }) fun _ _ => False := by
      refine ensures_narrow plain (fun e' found _ _ => ?_) fun _ _ _ => ⟨rfl, rfl⟩
      rw [found] at known
      cases known
    obtain ⟨_, _, ran, rfl, rfl⟩ := right.exists_ok
    refine ⟨_, _, ran, { hosts with schemas := hosts.schemas.push ?_, narrowed := ?_ },
      hosts.schemas.size⟩
    · obtain ⟨p, echo⟩ := hosts.schemas.node i
      exact ⟨p, congrArg (Node.ofType · type) echo⟩
    · rw [hosts.narrowed, hosts.schemas.size]
      rfl

theorem hosted_mapM {xs : List α} {ys : List γ} {f : α → Build β} {h : γ → Build δ}
    (each : List.Forall₂ (fun a c => Hosted (f a) (h c)) xs ys) :
    Hosted (xs.mapM f) (ys.mapM h) := by
  induction each with
  | nil => exact shadows_pure trivial
  | cons first _ ih =>
    rw [List.mapM_cons, List.mapM_cons]
    apply first.bind
    intro _ _ _
    apply ih.bind
    exact fun _ _ _ => shadows_pure trivial

/-- What is gone through in a traversal is all that counts. -/
theorem hosted_traverse {x y : Form Need} {f h : Need → Build TypeId}
    (each : List.Forall₂ (fun x y => Hosted (f x) (h y)) x.references y.references) :
    Hosted (x.traverse f) (y.traverse h) := by
  intro b c form b' hosts run
  have through : x.references.mapM f b = .ok form.references b' := by
    rw [← Form.references_traverse]
    show EStateM.map _ _ b = _
    unfold EStateM.map
    rw [run]
  obtain ⟨types, c', there, hosts', _⟩ := hosted_mapM each b c _ b' hosts through
  rw [← Form.references_traverse] at there
  replace there : EStateM.map Form.references (y.traverse h) c = .ok types c' := there
  unfold EStateM.map at there
  split at there
  · rename_i form' _ ran
    cases there
    exact ⟨form', c', ran, hosts', trivial⟩
  · cases there

section

variable {sub host : Subbuild}
  (subs : ∀ s keyName other, Hosted (sub s keyName) (host (s.renumber (· + 1)) other))
include subs

theorem hosted_need {x y : Need} (follows : x.Follows (· + 1) y) (i : NodeId) :
    Hosted (x.build sub i) (y.build host (i + 1)) := by
  cases follows with
  | any => exact hosted_addType _ _
  | value => exact hosted_addType _ _
  | copy type =>
    apply (shadows_narrow i type).bind
    rintro copy _ rfl
    exact subs (.node copy) none none
  | schema s keyName other => exact subs s keyName other
  | noted s keyName other note another =>
    apply (subs s keyName other).bind
    intro t t' _
    apply (hosted_addNote t t' note another).bind
    exact fun _ _ _ => shadows_pure trivial

theorem hosted_shape (i : NodeId) (category : Category) (keyName other : Option String) :
    Hosted (shape sub i category keyName) (shape host (i + 1) category other) := by
  rw [shape_eq_prepare, shape_eq_prepare]
  apply (shadows_prepare i category keyName other).bind
  rintro ⟨n, name, x⟩ ⟨n', name', y⟩ follows
  apply (hosted_traverse (follows.imp fun _ _ follows => hosted_need subs follows i)).bind
  exact fun _ _ _ => shadows_pure trivial

theorem hosted_inCategory (i : NodeId) (category : Category) (keyName other : Option String) :
    Hosted (inCategory sub i category keyName) (inCategory host (i + 1) category other) := by
  apply (shadows_built i category).bind
  rintro (_ | t) (_ | t') same
  · apply (hosted_reserve i category).bind
    intro t t' _
    apply (hosted_shape subs i category keyName other).bind
    intro n m _
    apply (hosted_fill t t' n m).bind
    exact fun _ _ _ => shadows_pure trivial
  · cases same
  · cases same
  · exact shadows_pure trivial

theorem hosted_combination (i : NodeId) (categories : List Category)
    (keyName other : Option String) :
    Hosted (combination sub i categories keyName) (combination host (i + 1) categories other) := by
  apply (shadows_built i .allOf).bind
  rintro (_ | t) (_ | t') same
  · apply (hosted_reserve i .allOf).bind
    intro t t' _
    apply (hosted_definitionKey i (i + 1)).bind
    intro key key' _
    apply (shadows_schema i).bind
    intro n m echoes
    apply (hosted_standaloneName echoes key key').bind
    intro name name' _
    apply (hosted_fill t t' _ _).bind
    intro _ _ _
    apply (shadows_strip i).bind
    rintro copy _ rfl
    have members : List.Forall₂ (fun c c' => Hosted
        (do return Part.type (← inCategory sub copy c keyName))
        (do return Part.type (← inCategory host (copy + 1) c' other))) categories categories := by
      refine List.forall₂_same.mpr fun c _ => ?_
      apply (hosted_inCategory subs copy c keyName other).bind
      exact fun _ _ _ => shadows_pure trivial
    apply (hosted_mapM members).bind
    intro parts parts' _
    apply (hosted_setParams t t' _ _).bind
    exact fun _ _ _ => shadows_pure trivial
  · cases same
  · cases same
  · exact shadows_pure trivial

/-- A level over builders of which one follows the other. -/
theorem hosted_level (s : Subschema) (keyName other : Option String) :
    Hosted (level sub s keyName) (level host (s.renumber (· + 1)) other) := by
  cases s with
  | bool allowed => exact hosted_addType _ _
  | bare v => exact hosted_addType _ _
  | node i =>
    apply (hosted_noteRoot i (i + 1)).bind
    intro _ _ _
    apply (shadows_schema i).bind
    rintro n _ ⟨p, rfl⟩
    rw [Node.categories_renumber]
    split
    · exact hosted_inCategory subs i _ keyName other
    · exact hosted_combination subs i _ keyName other

end

/-- The types of guests are built in as many levels, or more. -/
theorem hosted_levels {fuel more : Nat} (enough : fuel ≤ more) (s : Subschema)
    (keyName other : Option String) :
    Hosted (levels fuel s keyName) (levels more (s.renumber (· + 1)) other) := by
  induction fuel generalizing more s keyName other with
  | zero => exact shadows_throw _ _
  | succ fuel ih =>
    obtain ⟨more, rfl⟩ : ∃ less, more = less + 1 := Nat.exists_eq_add_one.mpr (by omega)
    exact hosted_level (fun s keyName other => ih (Nat.le_of_succ_le_succ enough) s keyName other)
      s keyName other

/-- With guests to build, a host is deeper than they are by themselves. -/
theorem depth_lt_of_hosts {g h : Graph} (hosts : h.Hosts g) : depth g < depth h := by
  have types : g.mostTypes ≤ h.mostTypes := by
    refine Graph.mostTypes_le fun i inside => ?_
    obtain ⟨p, echo⟩ := hosts.node i
    have same : (g.node i).typeList = (h.node (i + 1)).typeList := by
      rw [echo]
      rfl
    rw [same]
    exact Graph.typeList_length_le (hosts.lt_size.mpr inside)
  have larger : g.size * (2 + 4 * g.mostTypes) < h.size * (2 + 4 * h.mostTypes) := by
    refine Nat.mul_lt_mul_of_lt_of_le ?_ (by omega) (by omega)
    rw [hosts.size]
    exact Nat.lt_succ_self _
  rw [depth_eq, depth_eq]
  omega

end Build
end LinkedSchema
