import LinkedSchema.Proofs.Schema.Contents
import LinkedSchema.Proofs.Schema.Definitions
/-! Graphs that documents are ingested into and that rules are applied to. Wherever a schema is
expected, their nodes have a boolean or a node of the graph. -/
namespace LinkedSchema

variable {n m : Node} {options : Options} {fileName : Option String} {root i : NodeId} {g h : Graph}
  {s : Subschema}

/-- A boolean, or a node of a graph of that size. -/
def Subschema.Proper (size : Nat) : Subschema → Prop
  | .node i => i < size
  | .bool _ => True
  | .bare _ => False

theorem Subschema.Proper.mono {size more : Nat} (le : size ≤ more) (proper : s.Proper size) :
    s.Proper more := by
  cases s with
  | node i => exact Nat.lt_of_lt_of_le proper le
  | _ => exact proper

theorem Subschema.Proper.below {size : Nat} (proper : s.Proper size) : s.Below size := by
  cases s <;> first | exact proper | trivial

def Node.Proper (size : Nat) (n : Node) : Prop := ∀ s ∈ n.children, s.Proper size

namespace Graph

def Proper (g : Graph) : Prop := ∀ i < g.size, (g.node i).Proper g.size

theorem Proper.closed (proper : g.Proper) : g.Closed :=
  fun i inside s child => (proper i inside s child).below

theorem Proper.node (proper : g.Proper) (i : NodeId) : (g.node i).Proper g.size := by
  by_cases inside : i < g.size
  · exact proper i inside
  · rw [node_of_le (Nat.le_of_not_lt inside)]
    exact fun s child => absurd child List.not_mem_nil

end Graph

/-- Nothing but the children of the second node, and booleans that are true. -/
def Node.Keeps (m n : Node) : Prop := ∀ s ∈ m.children, s ∈ n.children ∨ s = .bool true

theorem Node.Keeps.of_eq (same : m.children = n.children) : m.Keeps n :=
  fun _ child => .inl (same ▸ child)

theorem Node.Keeps.proper {size : Nat} (keeps : m.Keeps n) (proper : n.Proper size) :
    m.Proper size := by
  intro s child
  rcases keeps s child with old | rfl
  · exact proper s old
  · trivial

namespace Rule

/-- A rule that puts nothing new where a schema is expected, except for true. -/
def Conserves (rule : Rule) : Prop :=
  ∀ (options : Options) (n m : Node), rule.apply options n = .ok m → m.Keeps n

theorem keeps_defaultAdditionalProperties : (defaultAdditionalProperties n).Keeps n := by
  intro s child
  unfold defaultAdditionalProperties at child
  split at child
  · simp only [Node.children, List.mem_append, Option.toList_some, List.mem_singleton] at child ⊢
    rcases child with (child | new) | child
    · exact .inl (.inl (.inl child))
    · exact .inr new
    · exact .inl (.inr child)
  · exact .inl child

theorem keeps_expandItems (made : expandItems n = .ok m) : m.Keeps n := by
  intro s child
  obtain ⟨items, additionalItems, rfl, _, _, among, further⟩ := expandItems_spec made
  simp only [Node.children, List.mem_append, Option.mem_toList] at child ⊢
  rcases child with (((child | item) | child) | child) | additional
  · simp only [child, true_or]
  · simp only [among s item, true_or, or_true]
  · simp only [child, true_or, or_true]
  · simp only [child, true_or, or_true]
  · rcases further s additional with old | item
    · simp only [Option.mem_def.mp old, or_true, true_or]
    · simp only [item, true_or, or_true]

theorem children_dropEmptyBases : (dropEmptyBases n).children = n.children := by
  unfold dropEmptyBases
  split
  · rename_i found
    simp [Node.children, found, Bases.toList]
  · rename_i found
    simp [Node.children, found, Bases.toList]
  · rfl

theorem children_listBases : (listBases n).children = n.children := by
  unfold listBases
  split
  · rename_i base found
    simp [Node.children, found, Bases.toList]
  · rfl

theorem all_conserve : ∀ rule ∈ all, rule.Conserves := by
  intro rule listed options n m made
  simp only [all, List.mem_cons, List.not_mem_nil, or_false] at listed
  rcases listed with rfl | rfl | rfl | rfl | rfl | rfl | rfl | rfl | rfl | rfl | rfl | rfl | rfl |
    rfl | rfl
  · obtain ⟨type, same, _⟩ := dropNullType_spec n
    cases made
    exact .of_eq (same ▸ rfl)
  · obtain ⟨type, same, _⟩ := unwrapSingleType_spec n
    cases made
    exact .of_eq (same ▸ rfl)
  · obtain ⟨required, same, _⟩ := defaultRequired_spec n
    cases made
    exact .of_eq (same ▸ rfl)
  · obtain ⟨required, same, _⟩ := listRequired_spec n
    cases made
    exact .of_eq (same ▸ rfl)
  · cases made
    exact keeps_defaultAdditionalProperties
  · obtain ⟨id, legacyId, rfl, _⟩ := moveLegacyId_spec made
    exact .of_eq rfl
  · obtain ⟨description, same⟩ := escapeDescription_writes n
    cases made
    exact .of_eq (same ▸ rfl)
  · obtain ⟨description, rfl⟩ := documentBounds_writes made
    exact .of_eq rfl
  · obtain ⟨minItems, maxItems, same, _⟩ := stripBounds_spec options n
    cases made
    exact .of_eq (same ▸ rfl)
  · obtain ⟨minItems, same, _⟩ := defaultMinItems_spec n
    cases made
    exact .of_eq (same ▸ rfl)
  · obtain ⟨maxItems, rfl⟩ := dropWideMaxItems_writes made
    exact .of_eq rfl
  · exact keeps_expandItems made
  · cases made
    exact .of_eq children_dropEmptyBases
  · cases made
    exact .of_eq children_listBases
  · obtain ⟨enum, same, _⟩ := constToEnum_spec n
    cases made
    exact .of_eq (same ▸ rfl)

end Rule

namespace Graph

/-- The graph that is left behind, even by a failure. -/
def after {ε α : Type} : EStateM.Result ε Graph α → Graph
  | .ok _ h | .error _ h => h

theorem size_walkFrom {ε : Type} {edit : Visit → Node → Except ε Node} :
    ∀ (fuel : Nat) (pending met : List Visit) (g : Graph),
      (after (walkFrom edit fuel pending met g)).size = g.size := by
  intro fuel
  induction fuel with
  | zero => exact fun _ _ _ => rfl
  | succ fuel ih =>
    intro pending met g
    rw [walkFrom]
    split
    · rfl
    · split
      · rfl
      · rw [ih, size_set]

/-- What edits keep of a node a walk keeps of it, even if it fails on the way. -/
theorem walkFrom_keeps_node {ε : Type} {edit : Visit → Node → Except ε Node} {P : Node → Prop}
    (kept : ∀ v n m, P n → edit v n = .ok m → P m) :
    ∀ (fuel : Nat) (pending met : List Visit) (g : Graph), P (g.node i) →
      P ((after (walkFrom edit fuel pending met g)).node i) := by
  intro fuel
  induction fuel with
  | zero => exact fun _ _ _ here => here
  | succ fuel ih =>
    intro pending met g here
    rw [walkFrom]
    cases left : pending.dropWhile (g.isIdle met) with
    | nil => exact here
    | cons v rest =>
      obtain ⟨_, inside⟩ := isIdle_eq_false.mp (head_of_dropWhile left)
      cases made : edit v (g.node v.node) with
      | error e =>
        simp only [made]
        exact here
      | ok n =>
        simp only [made]
        refine ih (n.successors ++ rest) (v :: met) (g.set v.node n) ?_
        by_cases same : v.node = i
        · subst same
          rw [node_set_self inside]
          exact kept v _ n here made
        · rwa [node_set_ne same]

/-- What edits keep of each node a walk keeps of all nodes, even if it fails on the way. -/
theorem walkFrom_keeps {ε : Type} {edit : Visit → Node → Except ε Node} {P : Node → Prop}
    (kept : ∀ v n m, P n → edit v n = .ok m → P m) (fuel : Nat) (pending met : List Visit)
    (g : Graph) (all : ∀ i < g.size, P (g.node i)) :
    (after (walkFrom edit fuel pending met g)).size = g.size ∧
      ∀ i < g.size, P ((after (walkFrom edit fuel pending met g)).node i) :=
  ⟨size_walkFrom fuel pending met g,
    fun i inside => walkFrom_keeps_node kept fuel pending met g (all i inside)⟩

theorem after_applyRule {rule : Rule} : after (applyRule rule options fileName root g) =
    after (walk (fun _ n => rule.apply options n) root g) := by
  unfold applyRule
  split <;> rename_i run <;> rw [run] <;> rfl

/-- Graphs that are made by ingesting documents and by applying rules, which may fail. -/
inductive Documented : Graph → Prop
  | empty : Documented .empty
  | ingested {d : Document} {g later : Graph} {root : NodeId} :
      Documented g → d.ingest g = .ok root later → Documented later
  | ruled {g : Graph} (rule : Rule) (options : Options) (fileName : Option String)
      (root : NodeId) : rule ∈ Rule.all → Documented g →
      Documented (after (applyRule rule options fileName root g))

theorem proper_of_ingest {d : Document} (proper : g.Proper) (accepted : d.ingest g = .ok root h) :
    h.Proper := by
  have ends := d.ingest_ends g
  rw [accepted] at ends
  obtain ⟨start, met, _, depicted⟩ := ends
  have size : h.size = g.size + met.length := depicted.size
  intro i inside s child
  by_cases old : i < g.size
  · rw [depicted.kept i old] at child
    exact (proper i old s child).mono (by omega)
  · obtain ⟨k, rfl⟩ : ∃ k, i = g.size + k := ⟨i - g.size, by omega⟩
    have found : met[k]? = some met[k] := List.getElem?_eq_getElem (by omega)
    obtain ⟨fields, _, mirrors⟩ := depicted.mirrors k _ found
    obtain ⟨slot, holds⟩ := mirrors.held child
    cases s with
    | node j =>
      obtain ⟨q, _, made⟩ := holds
      exact depicted.lt_size made
    | bool b => trivial
    | bare v => exact holds

theorem proper_of_applyRule {rule : Rule} (listed : rule ∈ Rule.all) (proper : g.Proper) :
    (after (applyRule rule options fileName root g)).Proper := by
  have kept : ∀ (_ : Visit) (n m : Node), n.Proper g.size → rule.apply options n = .ok m →
      m.Proper g.size :=
    fun _ n m proper made => (Rule.all_conserve rule listed options n m made).proper proper
  obtain ⟨size, all⟩ := walkFrom_keeps kept g.size [⟨none, root⟩] [] g proper
  rw [after_applyRule]
  intro i inside
  rw [walk, size] at inside ⊢
  exact all i inside

theorem Documented.proper (documented : g.Documented) : g.Proper := by
  induction documented with
  | empty => exact nofun
  | ingested _ accepted ih => exact proper_of_ingest ih accepted
  | ruled rule options fileName root listed _ ih => exact proper_of_applyRule listed ih

end Graph
end LinkedSchema
