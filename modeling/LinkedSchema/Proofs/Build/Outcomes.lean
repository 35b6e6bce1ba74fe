import LinkedSchema.Build.TypeOf
import LinkedSchema.Proofs.Build.Planned
/-! Outcomes of the steps of a build. A step is judged by what it ends in, be it a result or a
fault; what a traversal ends in follows from what each of its steps keeps. -/
namespace LinkedSchema

variable {α β : Type} {b c : Builder} {bad : Fault → Builder → Prop} {n : Node} {i : NodeId}
  {key : Option String}

namespace Build

/-- From this state, the step ends in a good result and state, or in a bad fault and state. -/
def Ensures (b : Builder) (step : Build α) (good : α → Builder → Prop)
    (bad : Fault → Builder → Prop) : Prop :=
  match step b with
  | .ok a later => good a later
  | .error e later => bad e later

theorem ensures_of_ok {step : Build α} {good : α → Builder → Prop} {a : α} {later : Builder}
    (run : step b = .ok a later) (holds : good a later) : Ensures b step good bad := by
  unfold Ensures
  rwa [run]

theorem ensures_of_error {step : Build α} {good : α → Builder → Prop} {e : Fault}
    {later : Builder} (run : step b = .error e later) (holds : bad e later) :
    Ensures b step good bad := by
  unfold Ensures
  rwa [run]

theorem ensures_pure {good : α → Builder → Prop} {a : α} (holds : good a b) :
    Ensures b (pure a) good bad := holds

theorem ensures_throw {good : α → Builder → Prop} {e : Fault} (holds : bad e b) :
    Ensures b (throw e) good bad := holds

theorem Ensures.ok {step : Build α} {good : α → Builder → Prop} (h : Ensures b step good bad)
    {a : α} {later : Builder} (run : step b = .ok a later) : good a later := by
  unfold Ensures at h
  rwa [run] at h

theorem Ensures.error {step : Build α} {good : α → Builder → Prop} (h : Ensures b step good bad)
    {e : Fault} {later : Builder} (run : step b = .error e later) : bad e later := by
  unfold Ensures at h
  rwa [run] at h

/-- A step that cannot go wrong has a result. -/
theorem Ensures.exists_ok {step : Build α} {good : α → Builder → Prop}
    (h : Ensures b step good fun _ _ => False) : ∃ a later, step b = .ok a later ∧ good a later := by
  cases run : step b with
  | ok a later => exact ⟨a, later, rfl, h.ok run⟩
  | error e later => exact (h.error run).elim

theorem Ensures.imp {step : Build α} {good better : α → Builder → Prop}
    {worse : Fault → Builder → Prop} (h : Ensures b step good bad)
    (results : ∀ a later, good a later → better a later)
    (faults : ∀ e later, bad e later → worse e later) : Ensures b step better worse := by
  cases run : step b with
  | ok a later => exact ensures_of_ok run (results a later (h.ok run))
  | error e later => exact ensures_of_error run (faults e later (h.error run))

theorem Ensures.mono {step : Build α} {good better : α → Builder → Prop}
    (h : Ensures b step good bad) (results : ∀ a later, good a later → better a later) :
    Ensures b step better bad := h.imp results fun _ _ wrong => wrong

theorem Ensures.bind {step : Build α} {next : α → Build β} {mid : α → Builder → Prop}
    {good : β → Builder → Prop} (first : Ensures b step mid bad)
    (rest : ∀ a later, mid a later → Ensures later (next a) good bad) :
    Ensures b (step >>= next) good bad := by
  cases run : step b with
  | ok a later =>
    have follows : (step >>= next) b = next a later := by
      show EStateM.bind step next b = _
      simp only [EStateM.bind, run]
    unfold Ensures
    rw [follows]
    exact rest a later (first.ok run)
  | error e later =>
    have stops : (step >>= next) b = .error e later := by
      show EStateM.bind step next b = _
      simp only [EStateM.bind, run]
    exact ensures_of_error stops (first.error run)

/-- A step that goes by the state it is taken in. -/
theorem ensures_get {next : Builder → Build β} {good : β → Builder → Prop}
    (rest : Ensures b (next b) good bad) : Ensures b (get >>= next) good bad := rest

theorem ensures_schema {next : Node → Build β} {good : β → Builder → Prop}
    (rest : Ensures b (next (b.schemas.node i)) good bad) :
    Ensures b (schema i >>= next) good bad := rest

theorem ensures_built {category : Category} {next : Option TypeId → Build β}
    {good : β → Builder → Prop}
    (rest : Ensures b (next (b.built.lookup (i, category))) good bad) :
    Ensures b (built? i category >>= next) good bad := rest

theorem ensures_reserve {category : Category} {next : TypeId → Build β}
    {good : β → Builder → Prop}
    (rest : Ensures { b with
      types := b.types.push {}, built := ((i, category), b.types.size) :: b.built }
      (next b.types.size) good bad) : Ensures b (reserve i category >>= next) good bad := rest

theorem ensures_fill {t : TypeId} {n : TypeNode} {next : Unit → Build β}
    {good : β → Builder → Prop}
    (rest : Ensures { b with types := b.types.set t n } (next ()) good bad) :
    Ensures b (fill t n >>= next) good bad := rest

theorem ensures_setParams {t : TypeId} {params : Params} {next : Unit → Build β}
    {good : β → Builder → Prop}
    (rest : Ensures { b with types := b.types.set t { b.types.node t with params } } (next ())
      good bad) : Ensures b (setParams t params >>= next) good bad := rest

theorem ensures_noteRoot {next : Unit → Build β} {good : β → Builder → Prop}
    (rest : Ensures { b with root := some (b.root.getD i) } (next ()) good bad) :
    Ensures b (noteRoot i >>= next) good bad := rest

theorem ensures_ofExcept {x : Except Fault α} {good : α → Builder → Prop}
    (results : ∀ a, x = .ok a → good a b) (faults : ∀ e, x = .error e → bad e b) :
    Ensures b (MonadExcept.ofExcept x) good bad := by
  cases x with
  | ok a => exact results a rfl
  | error e => exact faults e rfl

section Traverse

variable {f : α → Build β}

section Remaining

variable {keeps : List α → List β → Builder → Prop} {rest : List α} {results : List β}
  (each : ∀ a rest results c, keeps (a :: rest) results c →
    Ensures c (f a) (fun r d => keeps rest (results ++ [r]) d) bad)
include each

/-- What each step keeps, given the elements that remain and the results so far, a run through a
list keeps. -/
theorem ensures_mapM_through {xs : List α} (start : keeps (xs ++ rest) results b) :
    Ensures b (xs.mapM f) (fun rs c => keeps rest (results ++ rs) c ∧ rs.length = xs.length)
      bad := by
  induction xs generalizing b results with
  | nil =>
    rw [List.mapM_nil]
    exact ensures_pure (by simpa using start)
  | cons a xs ih =>
    rw [List.mapM_cons]
    apply (each a (xs ++ rest) results b start).bind
    intro r c kept
    apply (ih kept).bind
    rintro rs d ⟨kept, length⟩
    exact ensures_pure ⟨by simpa using kept, congrArg Nat.succ length⟩

theorem ensures_part {p : Part α} (start : keeps (p.type?.toList ++ rest) results b) :
    Ensures b (p.traverse f) (fun q c => keeps rest (results ++ q.type?.toList) c ∧
      q.Matches Eq (fun _ _ => True) p) bad := by
  cases p with
  | type a =>
    apply (each a _ _ _ start).bind
    intro r c kept
    exact ensures_pure ⟨kept, .type trivial⟩
  | member x =>
    simp only [Part.traverse, Member.traverse, bind_assoc, pure_bind]
    apply (each x.type _ _ _ start).bind
    intro r c kept
    exact ensures_pure ⟨kept, .member ⟨rfl, rfl, rfl, rfl, trivial⟩⟩
  | choice name a =>
    apply (each a _ _ _ start).bind
    intro r c kept
    exact ensures_pure ⟨kept, .choice rfl trivial⟩
  | value v =>
    refine ensures_pure ⟨?_, .value rfl⟩
    simpa [Part.type?] using start

theorem ensures_parts {parts : List (Part α)}
    (start : keeps (parts.filterMap Part.type? ++ rest) results b) :
    Ensures b (parts.mapM (Part.traverse f))
      (fun qs c => keeps rest (results ++ qs.filterMap Part.type?) c ∧
        List.Forall₂ (Part.Matches Eq fun _ _ => True) qs parts) bad := by
  induction parts generalizing b results with
  | nil =>
    rw [List.mapM_nil]
    exact ensures_pure ⟨by simpa using start, .nil⟩
  | cons p parts ih =>
    rw [Part.types_cons, List.append_assoc] at start
    rw [List.mapM_cons]
    apply (ensures_part each start).bind
    rintro q c ⟨kept, alike⟩
    apply (ih kept).bind
    rintro qs d ⟨kept, same⟩
    refine ensures_pure ⟨?_, .cons alike same⟩
    rwa [Part.types_cons, ← List.append_assoc]

theorem ensures_params {p : Params α} (start : keeps (p.types ++ rest) results b) :
    Ensures b (p.traverse f) (fun q c => keeps rest (results ++ q.types) c ∧
      q.Matches Eq (fun _ _ => True) p) bad := by
  cases p with
  | one a =>
    apply (each a _ _ _ start).bind
    intro r c kept
    exact ensures_pure ⟨kept, .one trivial⟩
  | value v =>
    refine ensures_pure ⟨?_, .value rfl⟩
    simpa [Params.types] using start
  | many parts =>
    apply (ensures_parts each start).bind
    rintro qs c ⟨kept, same⟩
    exact ensures_pure ⟨kept, .many same⟩

theorem ensures_mapM_option {x : Option α} (start : keeps (x.toList ++ rest) results b) :
    Ensures b (x.mapM f) (fun y c => keeps rest (results ++ y.toList) c ∧
      Option.Rel (fun _ _ => True) y x) bad := by
  cases x with
  | none =>
    refine ensures_pure ⟨?_, .none⟩
    simpa using start
  | some a =>
    rw [Option.mapM_some, ← bind_pure_comp]
    apply (each a _ _ _ start).bind
    intro r c kept
    exact ensures_pure ⟨kept, .some trivial⟩

/-- What each step keeps, given what remains, a traversal of a form keeps, and it makes a form that
is the same in all but what it refers to. -/
theorem ensures_traverse_through {x : Form α} (start : keeps x.references [] b) :
    Ensures b (x.traverse f) (fun y c => keeps [] y.references c ∧
      y.Matches Eq (fun _ _ => True) x) bad := by
  have begun : keeps (x.params.types ++ (x.superTypes ++ (x.spread.toList ++ []))) [] b := by
    simpa [Form.references] using start
  apply (ensures_params each begun).bind
  rintro p b₁ ⟨kept, sameParams⟩
  apply (ensures_mapM_through each kept).bind
  rintro superTypes b₂ ⟨kept, length⟩
  apply (ensures_mapM_option each kept).bind
  rintro y b₃ ⟨kept, sameSpread⟩
  refine ensures_pure ⟨kept, rfl, sameParams, rfl, ?_, rfl, rfl, sameSpread⟩
  exact List.forall₂_iff_zip.mpr ⟨length, fun _ => trivial⟩

end Remaining

variable {keeps : List α → List β → Builder → Prop}

/-- What is kept given the elements done, told by the ones that remain. -/
def Remains (keeps : List α → List β → Builder → Prop) (xs rest : List α) (results : List β)
    (c : Builder) : Prop :=
  ∃ done, xs = done ++ rest ∧ keeps done results c

theorem ensures_remains {xs : List α}
    (each : ∀ a ∈ xs, ∀ done results c, keeps done results c →
      Ensures c (f a) (fun r d => keeps (done ++ [a]) (results ++ [r]) d) bad) :
    ∀ a rest results c, Remains keeps xs (a :: rest) results c →
      Ensures c (f a) (fun r d => Remains keeps xs rest (results ++ [r]) d) bad := by
  rintro a rest results c ⟨done, rfl, kept⟩
  refine (each a (by simp) done results c kept).mono fun r d kept => ?_
  exact ⟨done ++ [a], by simp, kept⟩

/-- What each step keeps, given the elements done and their results, a run through a list keeps. -/
theorem ensures_mapM {xs : List α}
    (each : ∀ a ∈ xs, ∀ done results c, keeps done results c →
      Ensures c (f a) (fun r d => keeps (done ++ [a]) (results ++ [r]) d) bad)
    (start : keeps [] [] b) :
    Ensures b (xs.mapM f) (fun rs c => keeps xs rs c ∧ rs.length = xs.length) bad := by
  have begun : Remains keeps xs (xs ++ []) [] b := ⟨[], by simp, start⟩
  refine (ensures_mapM_through (ensures_remains each) begun).mono ?_
  rintro rs c ⟨⟨done, rfl, kept⟩, length⟩
  exact ⟨by simpa using kept, length⟩

/-- What each step keeps, a traversal of a form keeps, and it makes a form that is the same in all
but what it refers to. -/
theorem ensures_traverse {x : Form α}
    (each : ∀ a ∈ x.references, ∀ done results c, keeps done results c →
      Ensures c (f a) (fun r d => keeps (done ++ [a]) (results ++ [r]) d) bad)
    (start : keeps [] [] b) :
    Ensures b (x.traverse f) (fun y c => keeps x.references y.references c ∧
      y.Matches Eq (fun _ _ => True) x) bad := by
  have begun : Remains keeps x.references x.references [] b := ⟨[], rfl, start⟩
  refine (ensures_traverse_through (ensures_remains each) begun).mono ?_
  rintro y c ⟨⟨done, all, kept⟩, same⟩
  rw [all, List.append_nil]
  exact ⟨kept, same⟩

end Traverse

theorem ensures_keyBelow {root : Option NodeId} {good : Option String → Builder → Prop}
    (holds : ∀ key definitions, good key { b with definitions }) :
    Ensures b (keyBelow i root) good bad := holds _ _

/-- The search for a key does nothing but collect definitions. -/
theorem ensures_definitionKey {good : Option String → Builder → Prop}
    (holds : ∀ key definitions, good key { b with definitions }) :
    Ensures b (definitionKey i) good bad := by
  have first : Ensures b (keyBelow i none)
      (fun _ c => ∃ definitions, c = { b with definitions }) bad :=
    ensures_keyBelow fun _ definitions => ⟨definitions, rfl⟩
  apply first.bind
  rintro key _ ⟨definitions, rfl⟩
  cases key with
  | some key => exact ensures_pure (holds _ _)
  | none =>
    apply ensures_get
    split
    · split
      · exact ensures_pure (holds _ _)
      · exact ensures_keyBelow fun key definitions => holds key definitions
    · exact ensures_pure (holds _ _)

/-- A name is made and taken, or none is called for, or the source of the name is at fault. -/
theorem ensures_standaloneName {good : Option String → Builder → Prop}
    (none : n.Nameable → good none b)
    (some : n.Nameable → ∀ text, good (some (b.usedNames.allocate text).1)
      { b with usedNames := (b.usedNames.allocate text).2 })
    (fault : ¬ n.Nameable → bad (.misused .name) b) :
    Ensures b (standaloneName n key) good bad := by
  unfold standaloneName
  extract_lets source
  have same : source = n.nameSource?.getD (.str (key.getD "")) := by
    unfold source Node.nameSource?
    split
    · rfl
    · split <;> rfl
  generalize source = v at same
  cases v with
  | str text =>
    have nameable : n.Nameable := by
      intro v given
      rw [Option.mem_def.mp given, Option.getD_some] at same
      rw [← same]
      rfl
    dsimp only
    split
    · exact ensures_pure (none nameable)
    · exact some nameable text
  | _ =>
    refine fault fun nameable => ?_
    cases given : n.nameSource? with
    | none =>
      rw [given] at same
      cases same
    | some v =>
      rw [given, Option.getD_some] at same
      have text := nameable v given
      rw [← same] at text
      cases text

/-- What a type is made after is prepared without building anything: the plan of the node and a
name, or a fault of the one or the other. -/
theorem ensures_prepare {category : Category} {keyName : Option String}
    {good : Node × Option String × Form Need → Builder → Prop} (node : b.schemas.node i = n)
    (made : ∀ plan name form usedNames definitions, n.Nameable →
      n.plan i b.fileName category = .ok plan → plan name = .ok form →
      good (n, name, form) { b with usedNames, definitions })
    (fault : ∀ e usedNames definitions, (n.plan i b.fileName category = .error e ∨
        (¬ n.Nameable ∧ e = .misused .name) ∨
        ∃ plan name, n.plan i b.fileName category = .ok plan ∧ plan name = .error e) →
      bad e { b with usedNames, definitions }) :
    Ensures b (prepare i category keyName) good bad := by
  have keyed : Ensures b (definitionKey i)
      (fun _ c => ∃ definitions, c = { b with definitions }) bad :=
    ensures_definitionKey fun _ definitions => ⟨definitions, rfl⟩
  apply keyed.bind
  rintro key _ ⟨definitions, rfl⟩
  apply ensures_schema
  apply ensures_get
  rw [node]
  have found : Ensures { b with definitions } (MonadExcept.ofExcept (n.plan i b.fileName category))
      (fun plan c => c = { b with definitions } ∧ n.plan i b.fileName category = .ok plan) bad :=
    ensures_ofExcept (fun _ found => ⟨rfl, found⟩) fun e refused => fault e _ _ (.inl refused)
  apply found.bind
  rintro plan _ ⟨rfl, found⟩
  have named : Ensures { b with definitions }
      (standaloneName n (category.nameKey keyName key))
      (fun _ c => (∃ usedNames, c = { b with usedNames, definitions }) ∧ n.Nameable) bad :=
    ensures_standaloneName (fun nameable => ⟨⟨_, rfl⟩, nameable⟩)
      (fun nameable _ => ⟨⟨_, rfl⟩, nameable⟩)
      fun nameless => fault _ _ _ (.inr (.inl ⟨nameless, rfl⟩))
  apply named.bind
  rintro name _ ⟨⟨usedNames, rfl⟩, nameable⟩
  have planned : Ensures { b with usedNames, definitions } (MonadExcept.ofExcept (plan name))
      (fun form c => c = { b with usedNames, definitions } ∧ plan name = .ok form) bad :=
    ensures_ofExcept (fun _ planned => ⟨rfl, planned⟩)
      fun e refused => fault e _ _ (.inr (.inr ⟨plan, name, found, refused⟩))
  apply planned.bind
  rintro form _ ⟨rfl, planned⟩
  exact ensures_pure (made plan name form _ _ nameable found planned)

/-- The copy of a node is found, or it is made of the node as it is now. -/
theorem ensures_strip {good : NodeId → Builder → Prop}
    (found : ∀ copy, b.stripped.lookup i = some copy → good copy b)
    (made : b.stripped.lookup i = none → good b.schemas.size { b with
      schemas := b.schemas.push (b.schemas.node i).unnamed
      stripped := (i, b.schemas.size) :: b.stripped }) : Ensures b (strip i) good bad := by
  unfold strip
  apply ensures_get
  split
  · rename_i copy listed
    exact ensures_pure (found copy listed)
  · rename_i absent
    exact made absent

theorem ensures_narrow {type : Json} {good : NodeId → Builder → Prop}
    (fault : (type.isArr || type.isObj) = true → bad (.misused .typeName) b)
    (found : ∀ e, b.narrowed.find? (fun e => e.1.1 == i && e.1.2.alike type) = some e →
      type.isArr = false → type.isObj = false → good e.2 b)
    (made : b.narrowed.find? (fun e => e.1.1 == i && e.1.2.alike type) = none →
      type.isArr = false → type.isObj = false → good b.schemas.size { b with
        schemas := b.schemas.push ((b.schemas.node i).ofType type)
        narrowed := ((i, type), b.schemas.size) :: b.narrowed }) :
    Ensures b (narrow i type) good bad := by
  unfold narrow
  split
  · rename_i container
    exact fault container
  · rename_i plain
    obtain ⟨noList, noObject⟩ := Bool.or_eq_false_iff.mp (eq_false_of_ne_true plain)
    apply ensures_get
    split
    · rename_i listed
      exact ensures_pure (found _ listed noList noObject)
    · rename_i absent
      exact made absent noList noObject

end Build
end LinkedSchema
