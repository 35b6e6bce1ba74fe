import LinkedSchema.Proofs.Build.Copying
import LinkedSchema.Proofs.Build.Housing
import LinkedSchema.Proofs.Build.Tandem
/-! Builds in step with builds without parent links. Both give every node the key that it has below
the root, so names come out the same, and nothing else of a build looks at parents. -/
namespace LinkedSchema

variable {g : Graph} {b : Builder} {r : NodeId} {n m : Node} {p : Option NodeId} {α β : Type}
  {category : Category}

namespace Node

theorem plan_withParent (i : NodeId) (fileName : Option String) :
    (n.withParent p).plan i fileName category = n.plan i fileName category := by
  cases category <;> rfl

theorem categories_withParent : (n.withParent p).categories = n.categories := rfl

end Node

namespace Builder

/-- Copies of nodes have the parents and the children of the nodes. -/
theorem Rooted.push (rooted : b.Rooted g r) (i : NodeId)
    (children : m.children = (b.schemas.node i).children)
    (parent : m.parent = (b.schemas.node i).parent) :
    Rooted g r { b with schemas := b.schemas.push m } := by
  refine { rooted with
    size := ?_, kept := fun j inside => ?_
    children := fun j s child => ?_, above := fun j p up => ?_ }
  · rw [Graph.size_push]
    exact Nat.le_succ_of_le rooted.size
  · rw [Graph.node_push_of_lt (Nat.lt_of_lt_of_le inside rooted.size)]
    exact rooted.kept j inside
  · rcases b.schemas.node_push_or m j with same | same <;> rw [same] at child
    · exact rooted.children j s child
    · exact rooted.children i s (children ▸ child)
  · rcases b.schemas.node_push_or m j with same | same <;> rw [same] at up
    · exact rooted.above j p up
    · exact rooted.above i p (parent ▸ up)

/-- Two builds at the same point. The second one has no parent links, and the two may remember
different definitions. -/
structure Twins (g : Graph) (r : NodeId) (b c : Builder) : Prop where
  left : b.Rooted g r
  right : c.Rooted g.orphans r
  same : ∃ definitions, c = { b with schemas := b.schemas.orphans, definitions }

end Builder

namespace Build

open Builder (Twins)

/-- Both steps end in the same result or fault, and after a result the builds are still twins. -/
inductive Alike (g : Graph) (r : NodeId) :
    EStateM.Result Fault Builder α → EStateM.Result Fault Builder α → Prop where
  | ok {b c : Builder} (a : α) (twins : b.Twins g r c) : Alike g r (.ok a b) (.ok a c)
  | error (e : Fault) (b c : Builder) : Alike g r (.error e b) (.error e c)

/-- The steps end alike in builds that are twins. -/
def Paired (g : Graph) (r : NodeId) (x y : Build α) : Prop :=
  ∀ b c, b.Twins g r c → Alike g r (x b) (y c)

theorem lockstep_paired : Lockstep (fun γ => @Paired γ g r) where
  pure a _ _ twins := .ok a twins
  bind {_ _ x y f h} first rest b c twins := by
    show Alike g r (EStateM.bind x f b) (EStateM.bind y h c)
    unfold EStateM.bind
    have alike := first b c twins
    generalize x b = u, y c = v at alike ⊢
    cases alike with
    | ok a twins => exact rest a _ _ twins
    | error e b c => exact .error e b c

namespace Paired

theorem bind {x y : Build α} {f h : α → Build β} (first : Paired g r x y)
    (rest : ∀ a, Paired g r (f a) (h a)) : Paired g r (x >>= f) (y >>= h) :=
  lockstep_paired.bind first rest

theorem pure (a : α) : Paired g r (Pure.pure a : Build α) (Pure.pure a) := lockstep_paired.pure a

theorem throw (e : Fault) : Paired g r (MonadExcept.throw e : Build α) (MonadExcept.throw e) :=
  fun b c _ => .error e b c

theorem ofExcept (x : Except Fault α) :
    Paired g r (MonadExcept.ofExcept x : Build α) (MonadExcept.ofExcept x) := by
  cases x with
  | ok a => exact pure a
  | error e => exact throw e

/-- What is done after a look at the state. -/
theorem get {f h : Builder → Build α}
    (rest : ∀ (b : Builder) (definitions : DefinitionsCache),
      Paired g r (f b) (h { b with schemas := b.schemas.orphans, definitions })) :
    Paired g r (MonadState.get >>= f) (MonadState.get >>= h) := by
  intro b c twins
  obtain ⟨definitions, rfl⟩ := twins.same
  exact rest b definitions _ _ twins

theorem schema {f h : Node → Build α} (i : NodeId)
    (rest : ∀ n : Node, Paired g r (f n) (h (n.withParent none))) :
    Paired g r (Build.schema i >>= f) (Build.schema i >>= h) := by
  intro b c twins
  obtain ⟨definitions, rfl⟩ := twins.same
  have onward := rest (b.schemas.node i) b _ twins
  rw [← Graph.node_orphans] at onward
  exact onward

end Paired

/-- A change that neither looks at nor touches schemas, definitions and the root. -/
structure Aside (f : Builder → Builder) : Prop where
  apart : ∀ (b : Builder) (schemas : Graph) (definitions : DefinitionsCache),
    f { b with schemas, definitions } = { f b with schemas, definitions }
  root : ∀ b, (f b).root = b.root

theorem paired_modify {f : Builder → Builder} (aside : Aside f) :
    Paired g r (modify f) (modify f) := by
  have same (b : Builder) : f b = { f b with schemas := b.schemas, definitions := b.definitions } :=
    aside.apart b b.schemas b.definitions
  have keeps {h : Graph} {b : Builder} (rooted : b.Rooted h r) : (f b).Rooted h r := by
    rw [same]
    exact { rooted with root := (aside.root b).trans rooted.root }
  intro b c twins
  obtain ⟨definitions, rfl⟩ := twins.same
  refine Alike.ok () ⟨keeps twins.left, keeps twins.right, definitions, ?_⟩
  rw [aside.apart, same b]

theorem paired_modify_bind {f : Builder → Builder} {k h : Unit → Build α} (aside : Aside f)
    (rest : Paired g r (k ()) (h ())) : Paired g r (modify f >>= k) (modify f >>= h) :=
  (paired_modify aside).bind fun _ => rest

theorem paired_addType (n : TypeNode) : Paired g r (addType n) (addType n) := by
  apply Paired.get
  intro b _
  exact paired_modify_bind ⟨fun _ _ _ => rfl, fun _ => rfl⟩ (Paired.pure b.types.size)

theorem paired_fill (t : TypeId) (n : TypeNode) : Paired g r (fill t n) (fill t n) :=
  paired_modify ⟨fun _ _ _ => rfl, fun _ => rfl⟩

theorem paired_setParams (t : TypeId) (params : Params) :
    Paired g r (setParams t params) (setParams t params) :=
  paired_modify ⟨fun _ _ _ => rfl, fun _ => rfl⟩

theorem paired_addNote (t : TypeId) (note : String) :
    Paired g r (addNote t note) (addNote t note) :=
  paired_modify ⟨fun _ _ _ => rfl, fun _ => rfl⟩

theorem paired_built (i : NodeId) (category : Category) :
    Paired g r (built? i category) (built? i category) :=
  Paired.get fun b _ => Paired.pure (b.built.lookup (i, category))

theorem paired_reserve (i : NodeId) (category : Category) :
    Paired g r (reserve i category) (reserve i category) := by
  apply (paired_addType {}).bind
  intro t
  exact paired_modify_bind ⟨fun _ _ _ => rfl, fun _ => rfl⟩ (Paired.pure t)

theorem paired_standaloneName (n : Node) (key : Option String) :
    Paired g r (standaloneName n key) (standaloneName n key) := by
  unfold standaloneName
  extract_lets source
  cases source with
  | str text =>
    dsimp only
    split
    · exact Paired.pure none
    · apply Paired.get
      intro b _
      exact paired_modify_bind ⟨fun _ _ _ => rfl, fun _ => rfl⟩ (Paired.pure _)
  | _ => exact Paired.throw _

theorem paired_noteRoot (i : NodeId) : Paired g r (noteRoot i) (noteRoot i) := by
  intro b c twins
  obtain ⟨definitions, rfl⟩ := twins.same
  have root : some (b.root.getD i) = some r := by rw [twins.left.root]; rfl
  exact .ok () ⟨{ twins.left with root }, { twins.right with root }, definitions, rfl⟩

theorem exists_definitionKey (rooted : b.Rooted g r) (housed : g.Housed r) (i : NodeId) :
    ∃ definitions, Builder.Rooted g r { b with definitions } ∧
      definitionKey i b = .ok ((g.definitions r).keyOf i) { b with definitions } := by
  obtain ⟨_, _, run, rfl, next, definitions, rfl⟩ :=
    (rooted_definitionKey rooted housed i).exists_ok
  exact ⟨definitions, next, run⟩

theorem paired_definitionKey (housed : g.Housed r) (i : NodeId) :
    Paired g r (definitionKey i) (definitionKey i) := by
  intro b c twins
  obtain ⟨definitions, rfl⟩ := twins.same
  obtain ⟨_, left, here⟩ := exists_definitionKey twins.left housed i
  obtain ⟨more, right, there⟩ := exists_definitionKey twins.right housed.orphans i
  rw [here, there, Graph.definitions_orphans housed.closed housed.inside]
  exact .ok _ ⟨left, right, more, rfl⟩

/-- A copy of a node is added, to be used in further steps. -/
theorem paired_addSchema (i : NodeId) {copy : Node → Node} {k h : NodeId → Build α}
    (children : ∀ n, (copy n).children = n.children) (parent : ∀ n, (copy n).parent = n.parent)
    (blind : ∀ n : Node, copy (n.withParent none) = (copy n).withParent none)
    (rest : ∀ j, Paired g r (k j) (h j)) :
    Paired g r (schema i >>= fun n => addSchema (copy n) >>= k)
      (schema i >>= fun n => addSchema (copy n) >>= h) := by
  intro b c twins
  obtain ⟨definitions, rfl⟩ := twins.same
  have left := twins.left.push i (children _) (parent _)
  have right := twins.right.push i (children _) (parent _)
  have copied : b.schemas.orphans.push (copy (b.schemas.orphans.node i)) =
      (b.schemas.push (copy (b.schemas.node i))).orphans := by
    rw [Graph.orphans_push, Graph.node_orphans, blind]
  show Alike g r (k b.schemas.size _) (h b.schemas.orphans.size _)
  rw [Graph.size_orphans]
  exact rest _ _ _ ⟨left, right, definitions, by simp only [copied]⟩

theorem paired_strip (i : NodeId) : Paired g r (strip i) (strip i) := by
  apply Paired.get
  intro b _
  dsimp only
  split
  · exact Paired.pure _
  · refine paired_addSchema i Node.children_unnamed (fun _ => rfl) (fun _ => rfl) fun copy => ?_
    exact paired_modify_bind ⟨fun _ _ _ => rfl, fun _ => rfl⟩ (Paired.pure copy)

theorem paired_narrow (i : NodeId) (type : Json) : Paired g r (narrow i type) (narrow i type) := by
  unfold narrow
  split
  · exact Paired.throw _
  · apply Paired.get
    intro b _
    dsimp only
    split
    · exact Paired.pure _
    · refine paired_addSchema i (Node.children_ofType · type) (fun _ => rfl) (fun _ => rfl)
        fun copy => ?_
      exact paired_modify_bind ⟨fun _ _ _ => rfl, fun _ => rfl⟩ (Paired.pure copy)

theorem tandem_paired (housed : g.Housed r) :
    Tandem (fun _ => True) (fun α => @Paired α g r) fun n m => m = n.withParent none where
  lockstep := lockstep_paired
  throw := Paired.throw
  get rest := Paired.get fun b _ => rest b _ rfl
  schema _ rest := Paired.schema _ fun n => rest n _ rfl fun s _ => Subschema.among_all s
  strip _ rest := Paired.bind (paired_strip _) fun k => rest k trivial
  narrow type _ rest := Paired.bind (paired_narrow _ type) fun k => rest k trivial
  categories related := related ▸ Node.categories_withParent
  plan i fileName _ related := related ▸ Node.plan_withParent i fileName
  deprecated related := related ▸ rfl
  standaloneName key related := related ▸ paired_standaloneName _ key
  dress t _ _ _ related := related ▸ paired_fill t _
  addType := paired_addType
  addNote := paired_addNote
  setParams := paired_setParams
  built := paired_built
  reserve := paired_reserve
  noteRoot := paired_noteRoot
  definitionKey := paired_definitionKey housed

theorem paired_levels (housed : g.Housed r) (fuel : Nat) (s : Subschema)
    (keyName : Option String) : Paired g r (levels fuel s keyName) (levels fuel s keyName) :=
  (tandem_paired housed).levels fuel (Subschema.among_all s) keyName

end Build
end LinkedSchema
