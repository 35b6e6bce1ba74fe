import LinkedSchema.Proofs.Build.Log
import LinkedSchema.Proofs.Build.Planned
import LinkedSchema.Proofs.Build.Refusals
/-! Builds in tandem. Two builds that go together through each of the steps that builds are made of
go together all the way. -/
namespace LinkedSchema

/-- A schema that is no reference to a node, or one to a node among some. -/
def Subschema.Among (good : NodeId → Prop) : Subschema → Prop
  | .node i => good i
  | _ => True

theorem Subschema.among_all (s : Subschema) : s.Among fun _ => True := by
  cases s <;> trivial

namespace Build

variable {good : NodeId → Prop} {P : (α : Type) → Build α → Build α → Prop}
  {N : Node → Node → Prop} {sub : Subbuild} {n m : Node} {i : NodeId} {s : Subschema} {α : Type}

/-- A relation of computations that fits the steps of a build, as far as it keeps to good nodes, and
one of the nodes that the computations find in the same place. Related nodes may differ in what no
step but the dressing of a type looks at. -/
structure Tandem (good : NodeId → Prop) (P : (α : Type) → Build α → Build α → Prop)
    (N : Node → Node → Prop) : Prop where
  lockstep : Lockstep P
  throw {α : Type} (e : Fault) : P α (MonadExcept.throw e) (MonadExcept.throw e)
  get {α : Type} {f h : Builder → Build α} :
    (∀ b c, c.fileName = b.fileName → P α (f b) (h c)) → P α (get >>= f) (get >>= h)
  schema {α : Type} {i : NodeId} {f h : Node → Build α} : good i →
    (∀ n m, N n m → (∀ s ∈ n.children, s.Among good) → P α (f n) (h m)) →
      P α (Build.schema i >>= f) (Build.schema i >>= h)
  strip {α : Type} {i : NodeId} {f h : NodeId → Build α} : good i →
    (∀ k, good k → P α (f k) (h k)) → P α (strip i >>= f) (strip i >>= h)
  narrow {α : Type} {i : NodeId} {f h : NodeId → Build α} (type : Json) : good i →
    (∀ k, good k → P α (f k) (h k)) → P α (narrow i type >>= f) (narrow i type >>= h)
  categories {n m : Node} : N n m → m.categories = n.categories
  plan {n m : Node} (i : NodeId) (fileName : Option String) (category : Category) : N n m →
    m.plan i fileName category = n.plan i fileName category
  deprecated {n m : Node} : N n m → m.deprecated = n.deprecated
  standaloneName {n m : Node} (key : Option String) : N n m →
    P _ (standaloneName n key) (standaloneName m key)
  dress {n m : Node} (t : TypeId) (keyName name : Option String) (form : Form TypeId) : N n m →
    P _ (fill t (n.dress keyName name form)) (fill t (m.dress keyName name form))
  addType (n : TypeNode) : P _ (addType n) (addType n)
  addNote (t : TypeId) (note : String) : P _ (addNote t note) (addNote t note)
  setParams (t : TypeId) (params : Params) : P _ (setParams t params) (setParams t params)
  built (i : NodeId) (category : Category) : P _ (built? i category) (built? i category)
  reserve (i : NodeId) (category : Category) : P _ (reserve i category) (reserve i category)
  noteRoot (i : NodeId) : P _ (noteRoot i) (noteRoot i)
  definitionKey (i : NodeId) : P _ (definitionKey i) (definitionKey i)

namespace Tandem

variable (tandem : Tandem good P N)
include tandem

section

variable (subs : ∀ s keyName, s.Among good → P _ (sub s keyName) (sub s keyName))
include subs

theorem need (here : good i) {x : Need} (offered : n.Offers (x.subject n))
    (children : ∀ s ∈ n.children, s.Among good) : P _ (x.build sub i) (x.build sub i) := by
  cases x with
  | any keyName => exact tandem.addType _
  | value v => exact tandem.addType _
  | copy type => exact tandem.narrow type here fun copy fine => subs (.node copy) none fine
  | schema s keyName note =>
    have among : s.Among good := by
      cases s with
      | node j => exact children _ offered
      | bool allowed => trivial
      | bare v => trivial
    cases note with
    | none => exact subs s keyName among
    | some note =>
      apply tandem.lockstep.bind (subs s keyName among)
      intro t
      exact tandem.lockstep.bind (tandem.addNote t note) fun _ => tandem.lockstep.pure t

theorem inCategory (here : good i) (category : Category) (keyName : Option String) :
    P _ (inCategory sub i category keyName) (inCategory sub i category keyName) := by
  apply tandem.lockstep.bind (tandem.built i category)
  intro found
  cases found with
  | some t => exact tandem.lockstep.pure t
  | none =>
    apply tandem.lockstep.bind (tandem.reserve i category)
    intro t
    -- the contents of the type are filled in at once, since the two need not be the same
    rw [shape_eq_planned, planned]
    simp only [bind_assoc, pure_bind]
    apply tandem.lockstep.bind (tandem.definitionKey i)
    intro key
    apply tandem.schema here
    intro n m related children
    apply tandem.get
    intro b c sameFile
    rw [tandem.plan i c.fileName category related, sameFile]
    cases planned : n.plan i b.fileName category with
    | error e => exact tandem.throw e
    | ok plan =>
      rw [show (MonadExcept.ofExcept (.ok plan) : Build _) = pure plan from rfl, pure_bind,
        pure_bind]
      apply tandem.lockstep.bind (tandem.standaloneName _ related)
      intro name
      cases made : plan name with
      | error e => exact tandem.throw e
      | ok form =>
        have each : ∀ x ∈ form.references, P _ (x.build sub i) (x.build sub i) := fun x listed =>
          tandem.need subs here
            (Node.offers_of_need (Node.formIn_of_plan planned made) listed) children
        apply tandem.lockstep.bind (tandem.lockstep.traverse each)
        intro y
        apply tandem.lockstep.bind (tandem.dress t keyName name y related)
        exact fun _ => tandem.lockstep.pure t

theorem combination (here : good i) (categories : List Category) (keyName : Option String) :
    P _ (combination sub i categories keyName) (combination sub i categories keyName) := by
  apply tandem.lockstep.bind (tandem.built i .allOf)
  intro found
  cases found with
  | some t => exact tandem.lockstep.pure t
  | none =>
    apply tandem.lockstep.bind (tandem.reserve i .allOf)
    intro t
    apply tandem.lockstep.bind (tandem.definitionKey i)
    intro key
    apply tandem.schema here
    intro n m related _
    apply tandem.lockstep.bind (tandem.standaloneName key related)
    intro name
    have filled := tandem.dress t keyName name
      { kind := some .intersection, params := .many [], deprecated := n.deprecated } related
    have same : m.dress keyName name
        { kind := some .intersection, params := .many [], deprecated := n.deprecated } =
          { m.describe .intersection keyName name with params := .many [] } := by
      rw [← tandem.deprecated related]
      rfl
    rw [same] at filled
    apply tandem.lockstep.bind filled
    intro _
    apply tandem.strip here
    intro copy fine
    refine tandem.lockstep.bind (tandem.lockstep.mapM fun c _ => ?_) fun parts => ?_
    · apply tandem.lockstep.bind (tandem.inCategory subs fine c keyName)
      exact fun t => tandem.lockstep.pure (Part.type t)
    · exact tandem.lockstep.bind (tandem.setParams t _) fun _ => tandem.lockstep.pure t

theorem level (among : s.Among good) (keyName : Option String) :
    P _ (level sub s keyName) (level sub s keyName) := by
  cases s with
  | bool b => exact tandem.addType _
  | bare v => exact tandem.addType _
  | node i =>
    apply tandem.lockstep.bind (tandem.noteRoot i)
    intro _
    apply tandem.schema among
    intro n m related _
    rw [tandem.categories related]
    split
    · exact tandem.inCategory subs among _ keyName
    · exact tandem.combination subs among _ keyName

end

/-- Builds that go together through every step go together to the end. -/
theorem levels (fuel : Nat) (among : s.Among good) (keyName : Option String) :
    P _ (levels fuel s keyName) (levels fuel s keyName) := by
  induction fuel generalizing s keyName with
  | zero => exact tandem.throw .outOfFuel
  | succ fuel ih => exact tandem.level (fun s keyName among => ih among keyName) among keyName

end Tandem
end Build
end LinkedSchema
