import LinkedSchema.Proofs.Build.Agreement
import LinkedSchema.Proofs.Build.Tandem
import LinkedSchema.Proofs.Schema.Accord
/-! Builds of kindred graphs, which differ node by node in nothing that a build looks at. The
types that are built differ in their comments at most, and in these as the descriptions of the nodes
do. -/
namespace LinkedSchema

variable {good : NodeId → Prop} {N : Node → Node → Prop} {C : Json → Json → Prop} {g h : Graph}
  {types : TypeGraph} {n m : Node} {x y : TypeNode} {i : NodeId} {s : Subschema} {b c : Builder}
  {α β : Type}

/-- A relation of nodes that agree in what a build looks at, and one of their descriptions. -/
structure Kinship (N : Node → Node → Prop) (C : Json → Json → Prop) : Prop where
  title {n m : Node} : N n m → m.title = n.title
  id {n m : Node} : N n m → m.id = n.id
  deprecated {n m : Node} : N n m → m.deprecated = n.deprecated
  categories {n m : Node} : N n m → m.categories = n.categories
  plan {n m : Node} (i : NodeId) (fileName : Option String) (category : Category) : N n m →
    m.plan i fileName category = n.plan i fileName category
  unnamed {n m : Node} : N n m → N n.unnamed m.unnamed
  ofType {n m : Node} (type : Json) : N n m → N (n.ofType type) (m.ofType type)
  description {n m : Node} : N n m → C n.description m.description
  refl (v : Json) : C v v
  image {v w : Json} (f : Json → Json) : C v w → C (f v) (f w)

/-- Nodes with the same edges and types, whatever else they say. -/
structure Node.SameOutline (n m : Node) : Prop where
  children : m.children = n.children
  definitions : m.definitions = n.definitions
  parent : m.parent = n.parent
  type : m.type = n.type

/-- Types that are the same but for their comments. -/
structure TypeNode.Akin (C : Json → Json → Prop) (x y : TypeNode) : Prop where
  rest : y = { x with comment := y.comment }
  comment : C x.comment y.comment

/-- Graphs of the same edges in which related nodes stand in the good places, from which no edge
leads to another place. New nodes get good places. -/
structure Graph.Kin (good : NodeId → Prop) (N : Node → Node → Prop) (g h : Graph) : Prop where
  size : h.size = g.size
  outline : ∀ i, (g.node i).SameOutline (h.node i)
  node : ∀ i, good i → N (g.node i) (h.node i)
  children : ∀ i, good i → ∀ s ∈ (g.node i).children, s.Among good
  fresh : ∀ i, g.size ≤ i → good i

namespace Graph.Kin

/-- Copies of related nodes are added. -/
theorem push (kin : g.Kin good N h) {copy : Node → Node} (here : good i)
    (related : N (copy (g.node i)) (copy (h.node i)))
    (outline : (copy (g.node i)).SameOutline (copy (h.node i)))
    (children : (copy (g.node i)).children = (g.node i).children) :
    (g.push (copy (g.node i))).Kin good N (h.push (copy (h.node i))) := by
  have nodes := node_push_both kin.size (copy (g.node i)) (copy (h.node i))
  refine ⟨?_, fun j => ?_, fun j fine => ?_, fun j fine => ?_, fun j beyond => ?_⟩
  · rw [size_push, size_push, kin.size]
  · rcases nodes j with ⟨left, right⟩ | ⟨left, right⟩ <;> rw [left, right]
    · exact kin.outline j
    · exact outline
  · rcases nodes j with ⟨left, right⟩ | ⟨left, right⟩ <;> rw [left, right]
    · exact kin.node j fine
    · exact related
  · rcases nodes j with ⟨left, _⟩ | ⟨left, _⟩ <;> rw [left]
    · exact kin.children j fine
    · rw [children]
      exact kin.children i here
  · rw [size_push] at beyond
    exact kin.fresh j (Nat.le_of_succ_le beyond)

variable (kin : g.Kin good N h)
include kin

theorem documentRoot (i : NodeId) : h.documentRoot i = g.documentRoot i := by
  have ancestor : ∀ fuel i, h.ancestor fuel i = g.ancestor fuel i := by
    intro fuel
    induction fuel with
    | zero => exact fun _ => rfl
    | succ fuel ih =>
      intro i
      rw [Graph.ancestor, Graph.ancestor, (kin.outline i).parent]
      split
      · exact ih _
      · rfl
  rw [Graph.documentRoot, Graph.documentRoot, kin.size, ancestor]

theorem definitions (i : NodeId) : h.definitions i = g.definitions i := by
  have below : ∀ fuel, h.collectBelow fuel = g.collectBelow fuel := by
    intro fuel
    induction fuel with
    | zero => rfl
    | succ fuel ih =>
      funext seen s
      cases s with
      | node j =>
        rw [collectBelow_node, collectBelow_node, (kin.outline j).children,
          (kin.outline j).definitions, ih]
      | bool allowed => rfl
      | bare v => rfl
  rw [Graph.definitions, Graph.definitions, kin.size, below]

theorem keyFor (cache : DefinitionsCache) (i : NodeId) (root : Option NodeId) :
    cache.keyFor h i root = cache.keyFor g i root := by
  unfold DefinitionsCache.keyFor DefinitionsCache.get
  simp only [kin.documentRoot, kin.definitions]

end Graph.Kin

/-- Types of as many places, each the same but for its comment as the one of the other graph. -/
structure TypeGraph.Akin (C : Json → Json → Prop) (g h : TypeGraph) : Prop where
  size : h.size = g.size
  node : ∀ t, (g.node t).Akin C (h.node t)

namespace TypeGraph.Akin

variable {g h : TypeGraph} (akin : g.Akin C h) (related : x.Akin C y)
include akin related

theorem push : (g.push x).Akin C (h.push y) where
  size := by rw [size_push, size_push, akin.size]
  node t := by
    rcases Nat.lt_trichotomy t g.size with old | rfl | beyond
    · rw [node_push_of_lt old, node_push_of_lt (akin.size ▸ old)]
      exact akin.node t
    · rw [node_push_self, ← akin.size, node_push_self]
      exact related
    · have outside : (g.push x).size ≤ t := by rwa [size_push]
      have outside' : (h.push y).size ≤ t := by rwa [size_push, akin.size]
      have both := akin.node t
      rw [node_of_le (Nat.le_of_lt beyond), node_of_le (akin.size ▸ Nat.le_of_lt beyond)] at both
      rwa [node_of_le outside, node_of_le outside']

theorem set (t : TypeId) : (g.set t x).Akin C (h.set t y) where
  size := by rw [size_set, size_set, akin.size]
  node u := by
    by_cases here : t = u
    · subst here
      by_cases inside : t < g.size
      · rw [node_set_self inside, node_set_self (akin.size ▸ inside)]
        exact related
      · have beyond : g.size ≤ t := Nat.le_of_not_lt inside
        have both := akin.node t
        rw [node_of_le beyond, node_of_le (akin.size ▸ beyond)] at both
        rwa [node_of_le (by rwa [size_set]), node_of_le (by rwa [size_set, akin.size])]
    · rw [node_set_ne here, node_set_ne here]
      exact akin.node u

end TypeGraph.Akin

/-- Builders at the same point of two builds of such graphs. The copies are among the good nodes. -/
inductive Builder.Kin (good : NodeId → Prop) (N : Node → Node → Prop) (C : Json → Json → Prop)
    (b : Builder) : Builder → Prop where
  | intro {schemas : Graph} {types : TypeGraph} : b.schemas.Kin good N schemas →
      b.types.Akin C types → (∀ e ∈ b.stripped, good e.2) → (∀ e ∈ b.narrowed, good e.2) →
        Kin good N C b { b with schemas, types }

namespace Build

open Builder (Kin)

/-- Both steps end in the same result or fault, and after a result the builders are still kin. -/
inductive Parallel (good : NodeId → Prop) (N : Node → Node → Prop) (C : Json → Json → Prop) :
    EStateM.Result Fault Builder α → EStateM.Result Fault Builder α → Prop where
  | ok {b c : Builder} (a : α) (kin : b.Kin good N C c) : Parallel good N C (.ok a b) (.ok a c)
  | error (e : Fault) (b c : Builder) : Parallel good N C (.error e b) (.error e c)

/-- The steps end in parallel from builders that are kin. -/
def Matched (good : NodeId → Prop) (N : Node → Node → Prop) (C : Json → Json → Prop)
    (x y : Build α) : Prop :=
  ∀ b c, b.Kin good N C c → Parallel good N C (x b) (y c)

theorem lockstep_matched : Lockstep (fun γ => @Matched γ good N C) where
  pure a _ _ kin := .ok a kin
  bind {_ _ x y f h} first rest b c kin := by
    show Parallel good N C (EStateM.bind x f b) (EStateM.bind y h c)
    unfold EStateM.bind
    have parallel := first b c kin
    generalize x b = u, y c = v at parallel ⊢
    cases parallel with
    | ok a kin => exact rest a _ _ kin
    | error e b c => exact .error e b c

namespace Matched

theorem bind {x y : Build α} {f h : α → Build β} (first : Matched good N C x y)
    (rest : ∀ a, Matched good N C (f a) (h a)) : Matched good N C (x >>= f) (y >>= h) :=
  lockstep_matched.bind first rest

theorem pure (a : α) : Matched good N C (Pure.pure a : Build α) (Pure.pure a) :=
  lockstep_matched.pure a

/-- What is done after a look at the state. -/
theorem get {f h : Builder → Build α}
    (rest : ∀ b c, b.Kin good N C c → Matched good N C (f b) (h c)) :
    Matched good N C (MonadState.get >>= f) (MonadState.get >>= h) :=
  fun b c kin => rest b c kin b c kin

theorem modified {f h : Builder → Builder}
    (kept : ∀ b c, b.Kin good N C c → (f b).Kin good N C (h c)) :
    Matched good N C (modify f) (modify h) :=
  fun b c kin => .ok () (kept b c kin)

end Matched

theorem matched_addType (related : x.Akin C y) : Matched good N C (addType x) (addType y) := by
  rintro b _ ⟨kin, types, strips, narrows⟩
  rw [show addType y _ = .ok _ _ from rfl, types.size]
  exact .ok b.types.size ⟨kin, types.push related, strips, narrows⟩

theorem matched_fill (t : TypeId) (related : x.Akin C y) :
    Matched good N C (fill t x) (fill t y) :=
  .modified fun _ _ ⟨kin, types, strips, narrows⟩ => ⟨kin, types.set related t, strips, narrows⟩

theorem matched_setParams (t : TypeId) (params : Params) :
    Matched good N C (setParams t params) (setParams t params) := by
  refine .modified fun b _ ⟨kin, types, strips, narrows⟩ =>
    ⟨kin, types.set ?_ t, strips, narrows⟩
  obtain ⟨rest, comment⟩ := types.node t
  exact ⟨by rw [rest], comment⟩

theorem matched_schema (here : good i) {f h : Node → Build α}
    (rest : ∀ n m, N n m → (∀ s ∈ n.children, s.Among good) → Matched good N C (f n) (h m)) :
    Matched good N C (schema i >>= f) (schema i >>= h) := by
  rintro b _ ⟨kin, types, strips, narrows⟩
  exact rest _ _ (kin.node i here) (kin.children i here) _ _ ⟨kin, types, strips, narrows⟩

theorem matched_built (i : NodeId) (category : Category) :
    Matched good N C (built? i category) (built? i category) := by
  rintro b _ ⟨kin, types, strips, narrows⟩
  exact .ok (b.built.lookup (i, category)) ⟨kin, types, strips, narrows⟩

theorem matched_noteRoot (i : NodeId) : Matched good N C (noteRoot i) (noteRoot i) :=
  .modified fun _ _ ⟨kin, types, strips, narrows⟩ => ⟨kin, types, strips, narrows⟩

theorem matched_keyBelow (i : NodeId) (root : Option NodeId) :
    Matched good N C (keyBelow i root) (keyBelow i root) := by
  rintro b _ ⟨kin, types, strips, narrows⟩
  show Parallel good N C (.ok (b.definitions.keyFor b.schemas i root).1 _)
    (.ok (b.definitions.keyFor _ i root).1 { b with
      definitions := (b.definitions.keyFor _ i root).2, schemas := _, types := _ })
  rw [kin.keyFor]
  exact .ok _ ⟨kin, types, strips, narrows⟩

theorem matched_definitionKey (i : NodeId) :
    Matched good N C (definitionKey i) (definitionKey i) := by
  apply (matched_keyBelow i none).bind
  rintro (_ | key)
  · apply Matched.get
    intro b c kin
    obtain ⟨root, document⟩ : c.root = b.root ∧ c.schemas.documentRoot i =
        b.schemas.documentRoot i := by
      obtain ⟨kin, _, _, _⟩ := kin
      exact ⟨rfl, kin.documentRoot i⟩
    rw [root, document]
    cases b.root with
    | none => exact .pure none
    | some root =>
      dsimp only
      split
      · exact .pure none
      · exact matched_keyBelow i (some root)
  · exact .pure (some key)

/-- A copy of a good node is added and remembered, and gets a good place. -/
theorem matched_copy (copy : Node → Node) (here : good i)
    (related : ∀ n m, N n m → N (copy n) (copy m))
    (outline : ∀ n m : Node, n.SameOutline m → (copy n).SameOutline (copy m))
    (children : ∀ n, (copy n).children = n.children) {note : NodeId → Builder → Builder}
    (kept : ∀ k b c, good k → b.Kin good N C c → (note k b).Kin good N C (note k c))
    {f h : NodeId → Build α} (rest : ∀ k, good k → Matched good N C (f k) (h k)) :
    Matched good N C
      (do
        let k ← (do
          let n ← schema i
          let k ← addSchema (copy n)
          modify (note k)
          return k)
        f k)
      (do
        let k ← (do
          let n ← schema i
          let k ← addSchema (copy n)
          modify (note k)
          return k)
        h k) := by
  rintro b _ (@⟨schemas, graph, kin, types, strips, narrows⟩)
  have fine : good b.schemas.size := kin.fresh _ (Nat.le_refl _)
  have pushed := kin.push here (related _ _ (kin.node i here)) (outline _ _ (kin.outline i))
    (children _)
  have next := kept b.schemas.size { b with schemas := b.schemas.push (copy (b.schemas.node i)) } _
    fine ⟨pushed, types, strips, narrows⟩
  show Parallel good N C (f b.schemas.size (note b.schemas.size _))
    (h schemas.size (note schemas.size { b with
      schemas := schemas.push (copy (schemas.node i)), types := graph }))
  rw [kin.size]
  exact rest b.schemas.size fine _ _ next

section Kinship

variable (kinship : Kinship N C)
include kinship

theorem matched_reserve (i : NodeId) (category : Category) :
    Matched good N C (reserve i category) (reserve i category) := by
  apply (matched_addType (x := {}) ⟨rfl, kinship.refl _⟩).bind
  intro t
  apply (Matched.modified fun _ _ ⟨kin, types, strips, narrows⟩ =>
    ⟨kin, types, strips, narrows⟩).bind
  exact fun _ => .pure t

theorem matched_addNote (t : TypeId) (note : String) :
    Matched good N C (addNote t note) (addNote t note) := by
  refine .modified fun b _ ⟨kin, types, strips, narrows⟩ =>
    ⟨kin, types.set ?_ t, strips, narrows⟩
  obtain ⟨rest, comment⟩ := types.node t
  refine ⟨by rw [rest], ?_⟩
  exact kinship.image
    (fun v => .str (if v.truthy then v.plain ++ "\n\n" ++ note else note)) comment

theorem matched_standaloneName (related : N n m) (key : Option String) :
    Matched good N C (standaloneName n key) (standaloneName m key) := by
  unfold standaloneName
  rw [kinship.title related, kinship.id related]
  extract_lets source
  cases source with
  | str text =>
    dsimp only
    split
    · exact .pure none
    · rintro b _ ⟨kin, types, strips, narrows⟩
      exact .ok _ ⟨kin, types, strips, narrows⟩
  | _ => exact fun b c _ => .error _ b c

theorem matched_strip (here : good i) {f h : NodeId → Build α}
    (rest : ∀ k, good k → Matched good N C (f k) (h k)) :
    Matched good N C (strip i >>= f) (strip i >>= h) := by
  unfold strip
  simp only [bind_assoc]
  apply Matched.get
  intro b c kin
  obtain ⟨same, strips⟩ : c.stripped = b.stripped ∧ ∀ e ∈ b.stripped, good e.2 := by
    obtain ⟨_, _, strips, _⟩ := kin
    exact ⟨rfl, strips⟩
  rw [same]
  cases found : b.stripped.lookup i with
  | some copy => exact rest copy (strips _ (mem_of_lookup found))
  | none =>
    refine matched_copy (N := N) Node.unnamed here (fun _ _ => kinship.unnamed)
      (fun _ _ same => ⟨same.children, same.definitions, same.parent, same.type⟩)
      Node.children_unnamed (fun k b _ fine ⟨kin, types, strips, narrows⟩ => ?_) rest
    exact ⟨kin, types, List.forall_mem_cons.mpr ⟨fine, strips⟩, narrows⟩

theorem matched_narrow (here : good i) (type : Json) {f h : NodeId → Build α}
    (rest : ∀ k, good k → Matched good N C (f k) (h k)) :
    Matched good N C (narrow i type >>= f) (narrow i type >>= h) := by
  unfold narrow
  split
  · exact fun b c _ => .error _ b c
  · simp only [bind_assoc]
    apply Matched.get
    intro b c kin
    obtain ⟨same, narrows⟩ : c.narrowed = b.narrowed ∧ ∀ e ∈ b.narrowed, good e.2 := by
      obtain ⟨_, _, _, narrows⟩ := kin
      exact ⟨rfl, narrows⟩
    rw [same]
    cases found : b.narrowed.find? fun e => e.1.1 == i && e.1.2.alike type with
    | some e => exact rest e.2 (narrows _ (List.mem_of_find?_eq_some found))
    | none =>
      refine matched_copy (N := N) (·.ofType type) here (fun _ _ => kinship.ofType type)
        (fun _ _ same => ⟨same.children, same.definitions, same.parent, rfl⟩)
        (Node.children_ofType · type) (fun k b _ fine ⟨kin, types, strips, narrows⟩ => ?_) rest
      exact ⟨kin, types, strips, List.forall_mem_cons.mpr ⟨fine, narrows⟩⟩

theorem tandem_matched : Tandem good (fun α => @Matched α good N C) N where
  lockstep := lockstep_matched
  throw e := fun b c _ => .error e b c
  get rest := .get fun b c kin => rest b c (by cases kin; rfl)
  schema here rest := matched_schema here rest
  strip here rest := matched_strip kinship here rest
  narrow type here rest := matched_narrow kinship here type rest
  categories := kinship.categories
  plan := kinship.plan
  deprecated := kinship.deprecated
  standaloneName key related := matched_standaloneName kinship related key
  dress t _ _ _ related := matched_fill t ⟨rfl, kinship.description related⟩
  addType n := matched_addType ⟨rfl, kinship.refl _⟩
  addNote := matched_addNote kinship
  setParams := matched_setParams
  built := matched_built
  reserve := matched_reserve kinship
  noteRoot := matched_noteRoot
  definitionKey := matched_definitionKey

end Kinship

theorem depth_kin (kin : g.Kin good N h) : depth h = depth g := by
  have counts (g : Graph) : g.nodes.foldl (fun most n => max most (typeCount n)) 0 =
      (g.nodes.map (·.type)).foldl (fun most type => max most (typeCount { type })) 0 := by
    rw [Array.foldl_map]
    rfl
  have types : h.nodes.map (·.type) = g.nodes.map (·.type) := by
    have size : h.nodes.size = g.nodes.size := kin.size
    refine Array.ext (by simpa using size) fun i hx hy => ?_
    have same := (kin.outline i).type
    rw [Array.size_map] at hx hy
    simpa [Graph.node, Array.getD_eq_getD_getElem?, hx, hy] using same
  rw [depth, depth, counts, counts, types, kin.size]

/-- A good schema is built to types that differ in comments at most, or it fails in the same way. -/
theorem parallel_typeOf (kinship : Kinship N C) (kin : g.Kin good N h) (among : s.Among good)
    (keyName fileName : Option String) (types : TypeGraph) :
    Parallel good N C (typeOf s keyName (.fresh g types fileName))
      (typeOf s keyName (.fresh h types fileName)) := by
  have run (g : Graph) : typeOf s keyName (.fresh g types fileName) =
      levels (depth g) s keyName (.fresh g types fileName) := rfl
  rw [run, run, depth_kin kin]
  exact (tandem_matched kinship).levels _ among keyName _ _
    ⟨kin, ⟨rfl, fun t => ⟨rfl, kinship.refl _⟩⟩, nofun, nofun⟩

end Build
end LinkedSchema
