import LinkedSchema.Build.TypeOf
import LinkedSchema.Proofs.Build.Outcomes
import LinkedSchema.Proofs.Lockstep
/-! Builds that keep a log of the calls for nodes and of the types that are remembered. Without the
log they are builds: `Logged.erases_levels`. -/
namespace LinkedSchema

section Lockstep

variable {α β : Type} {m k : Type → Type} [Monad m] [LawfulMonad m] [Monad k] [LawfulMonad k]

namespace Lockstep

variable {R : (γ : Type) → m γ → k γ → Prop} (lockstep : Lockstep R) {f : α → m β} {h : α → k β}
include lockstep

theorem part {p : Part α} (each : ∀ a ∈ p.type?, R β (f a) (h a)) :
    R (Part β) (p.traverse f) (p.traverse h) := by
  cases p with
  | type a => exact lockstep.bind (each a rfl) fun r => lockstep.pure (Part.type r)
  | member x =>
    simp only [Part.traverse, Member.traverse, bind_assoc, pure_bind]
    exact lockstep.bind (each x.type rfl) fun r => lockstep.pure _
  | choice name a => exact lockstep.bind (each a rfl) fun r => lockstep.pure (Part.choice name r)
  | value v => exact lockstep.pure (Part.value v)

theorem params {p : Params α} (each : ∀ a ∈ p.types, R β (f a) (h a)) :
    R (Params β) (p.traverse f) (p.traverse h) := by
  cases p with
  | one a => exact lockstep.bind (each a List.mem_cons_self) fun r => lockstep.pure (Params.one r)
  | value v => exact lockstep.pure (Params.value v)
  | many parts =>
    have all : R (List (Part β)) (parts.mapM (Part.traverse f)) (parts.mapM (Part.traverse h)) :=
      lockstep.mapM fun p listed => lockstep.part fun a here =>
        each a (List.mem_filterMap.mpr ⟨p, listed, here⟩)
    exact lockstep.bind all fun parts => lockstep.pure (Params.many parts)

theorem traverse {x : Form α} (each : ∀ a ∈ x.references, R β (f a) (h a)) :
    R (Form β) (x.traverse f) (x.traverse h) := by
  have params : R (Params β) (x.params.traverse f) (x.params.traverse h) :=
    lockstep.params fun a listed => each a (by simp [Form.references, listed])
  have supers : R (List β) (x.superTypes.mapM f) (x.superTypes.mapM h) :=
    lockstep.mapM fun a listed => each a (by simp [Form.references, listed])
  have spread : R (Option β) (x.spread.mapM f) (x.spread.mapM h) :=
    lockstep.option fun a here => each a (by simp [Form.references, Option.mem_def.mp here])
  apply lockstep.bind params
  intro p
  apply lockstep.bind supers
  intro superTypes
  apply lockstep.bind spread
  exact fun spread => lockstep.pure _

end Lockstep
end Lockstep

/-- What is logged of a build. -/
inductive Event where
  /-- The type was found for the node in the category, or reserved for it. -/
  | remembered (i : NodeId) (category : Category) (t : TypeId)
  /-- A call for the node returned the type. -/
  | returned (i : NodeId) (t : TypeId)
  deriving DecidableEq

/-- A step of a build with a log, newest event first. -/
abbrev Logged := StateT (List Event) Build

namespace Logged

def note (e : Event) : Logged Unit := modify (e :: ·)

section

variable (sub : Subschema → Option String → Logged TypeId)

def need (i : NodeId) : Need → Logged TypeId
  | .any keyName => Build.addType { kind := some .any, keyName }
  | .value v => Build.addType (Build.literal none v)
  | .schema s keyName none => sub s keyName
  | .schema s keyName (some text) => do
    let t ← sub s keyName
    Build.addNote t text
    return t
  | .copy type => do sub (.node (← Build.narrow i type)) none

def inCategory (i : NodeId) (category : Category) (keyName : Option String) : Logged TypeId := do
  match ← Build.built? i category with
  | some t =>
    note (.remembered i category t)
    return t
  | none =>
    let t ← Build.reserve i category
    note (.remembered i category t)
    let (n, name, form) ← Build.prepare i category keyName
    Build.fill t (n.dress keyName name (← form.traverse (need sub i)))
    return t

def combination (i : NodeId) (categories : List Category) (keyName : Option String) :
    Logged TypeId := do
  match ← Build.built? i .allOf with
  | some t =>
    note (.remembered i .allOf t)
    return t
  | none =>
    let t ← Build.reserve i .allOf
    note (.remembered i .allOf t)
    let key ← Build.definitionKey i
    let n ← Build.schema i
    let name ← Build.standaloneName n key
    Build.fill t { n.describe .intersection keyName name with params := .many [] }
    let copy ← Build.strip i
    let parts ← categories.mapM fun c => return Part.type (← inCategory sub copy c keyName)
    Build.setParams t (.many parts)
    return t

def ofNode (i : NodeId) (keyName : Option String) : Logged TypeId := do
  match (← Build.schema i).categories with
  | [category] => inCategory sub i category keyName
  | categories => combination sub i categories keyName

def level (s : Subschema) (keyName : Option String) : Logged TypeId :=
  match s with
  | .bool b => Build.addType (Build.booleanSchema keyName b)
  | .bare v => Build.addType (Build.literal keyName v)
  | .node i => do
    Build.noteRoot i
    let t ← ofNode sub i keyName
    note (.returned i t)
    return t

end

def levels : Nat → Subschema → Option String → Logged TypeId
  | 0 => fun _ _ => throw .outOfFuel
  | fuel + 1 => level (levels fuel)

/-- Without the log, the first step is the second one. -/
def Erases {α : Type} (x : Logged α) (y : Build α) : Prop := ∀ log, Prod.fst <$> x.run log = y

/-- A step that returns does so with a log, too. -/
theorem Erases.ok {α : Type} {x : Logged α} {y : Build α} (erases : Erases x y) {a : α}
    {b c : Builder} (run : y b = .ok a c) (log : List Event) :
    ∃ more, x.run log b = .ok (a, more) c := by
  rw [← erases log] at run
  replace run : EStateM.map Prod.fst (x.run log) b = .ok a c := run
  unfold EStateM.map at run
  split at run
  · rename_i r later outcome
    cases run
    exact ⟨r.2, outcome⟩
  · cases run

theorem erases_lift {α : Type} (y : Build α) : Erases (liftM y : Logged α) y := by
  intro log
  simp [StateT.run_monadLift]

theorem erases_note (e : Event) : Erases (note e) (pure ()) := by
  intro log
  rfl

theorem lockstep_erases : Lockstep (fun γ => @Erases γ) where
  pure a log := by simp
  bind first rest log := by
    simp only [StateT.run_bind, map_bind]
    rw [← first log, bind_map_left]
    exact bind_congr fun r => rest r.1 r.2

variable {α β : Type}

theorem Erases.bind {x : Logged α} {y : Build α} {f : α → Logged β} {h : α → Build β}
    (first : Erases x y) (rest : ∀ a, Erases (f a) (h a)) : Erases (x >>= f) (y >>= h) :=
  lockstep_erases.bind first rest

/-- An event is logged between two steps. -/
theorem Erases.note_bind {e : Event} {f : Unit → Logged β} {y : Build β}
    (rest : Erases (f ()) y) : Erases (note e >>= f) y :=
  lockstep_erases.bind (h := fun _ => y) (erases_note e) fun _ => rest

section

variable {sub : Subschema → Option String → Logged TypeId} {plain : Subbuild}
  (subs : ∀ s keyName, Erases (sub s keyName) (plain s keyName))
include subs

theorem erases_need (i : NodeId) (x : Need) : Erases (need sub i x) (x.build plain i) := by
  cases x with
  | any keyName => exact erases_lift _
  | value v => exact erases_lift _
  | copy type => exact (erases_lift _).bind fun copy => subs (.node copy) none
  | schema s keyName text =>
    cases text with
    | none => exact subs s keyName
    | some text =>
      apply (subs s keyName).bind
      intro t
      exact (erases_lift _).bind fun _ => lockstep_erases.pure t

theorem erases_inCategory (i : NodeId) (category : Category) (keyName : Option String) :
    Erases (inCategory sub i category keyName) (Build.inCategory plain i category keyName) := by
  apply (erases_lift (Build.built? i category)).bind
  intro found
  cases found with
  | some t => exact Erases.note_bind (lockstep_erases.pure t)
  | none =>
    rw [Build.shape_eq_prepare]
    apply (erases_lift (Build.reserve i category)).bind
    intro t
    apply Erases.note_bind
    simp only [bind_assoc]
    apply (erases_lift (Build.prepare i category keyName)).bind
    rintro ⟨n, name, form⟩
    have made := lockstep_erases.traverse (x := form) fun x _ => erases_need subs i x
    simp only [pure_bind]
    apply made.bind
    intro form
    exact (erases_lift _).bind fun _ => lockstep_erases.pure t

theorem erases_combination (i : NodeId) (categories : List Category) (keyName : Option String) :
    Erases (combination sub i categories keyName)
      (Build.combination plain i categories keyName) := by
  apply (erases_lift (Build.built? i .allOf)).bind
  intro found
  cases found with
  | some t => exact Erases.note_bind (lockstep_erases.pure t)
  | none =>
    apply (erases_lift (Build.reserve i .allOf)).bind
    intro t
    apply Erases.note_bind
    apply (erases_lift (Build.definitionKey i)).bind
    intro key
    apply (erases_lift (Build.schema i)).bind
    intro n
    apply (erases_lift (Build.standaloneName n key)).bind
    intro name
    apply (erases_lift _).bind
    intro _
    apply (erases_lift (Build.strip i)).bind
    intro copy
    refine Erases.bind (lockstep_erases.mapM fun c _ => ?_) fun parts => ?_
    · apply (erases_inCategory subs copy c keyName).bind
      exact fun t => lockstep_erases.pure (Part.type t)
    · exact (erases_lift _).bind fun _ => lockstep_erases.pure t

theorem erases_ofNode (i : NodeId) (keyName : Option String) :
    Erases (ofNode sub i keyName) (do
      match (← Build.schema i).categories with
      | [category] => Build.inCategory plain i category keyName
      | categories => Build.combination plain i categories keyName) := by
  apply (erases_lift (Build.schema i)).bind
  intro n
  split
  · exact erases_inCategory subs i _ keyName
  · exact erases_combination subs i _ keyName

theorem erases_level (s : Subschema) (keyName : Option String) :
    Erases (level sub s keyName) (Build.level plain s keyName) := by
  cases s with
  | bool b => exact erases_lift _
  | bare v => exact erases_lift _
  | node i =>
    apply (erases_lift (Build.noteRoot i)).bind
    intro _
    rw [← bind_pure (Build.schema i >>= _)]
    apply (erases_ofNode subs i keyName).bind
    exact fun t => Erases.note_bind (lockstep_erases.pure t)

end

theorem erases_levels (fuel : Nat) (s : Subschema) (keyName : Option String) :
    Erases (levels fuel s keyName) (Build.levels fuel s keyName) := by
  induction fuel generalizing s keyName with
  | zero =>
    intro log
    rfl
  | succ fuel ih => exact erases_level ih s keyName

end Logged
end LinkedSchema
