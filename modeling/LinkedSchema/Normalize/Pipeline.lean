import LinkedSchema.Normalize.Rules
import LinkedSchema.Schema.Walk
/-! Normalization of a graph: every rule has a walk of its own over the whole graph. -/
namespace LinkedSchema

/-- The fault that a defect of a node amounts to. -/
def Defect.toFault (fileName : Option String) (node : NodeId) : Defect → Fault
  | .conflictingIds legacyId id => .conflictingIds legacyId id node fileName
  | .misused as => .misused as

namespace Graph

/-- Applies a rule to all nodes that a root leads to. A fault leaves the nodes changed that were
visited before. -/
def applyRule (rule : Rule) (options : Options) (fileName : Option String) (root : NodeId) :
    EStateM Fault Graph Unit := fun g =>
  match walk (fun _ n => rule.apply options n) root g with
  | .ok _ g => .ok () g
  | .error (node, defect) g => .error (defect.toFault fileName node) g

/-- Applies rules one after the other. -/
def applyRules (rules : List Rule) (options : Options) (fileName : Option String)
    (root : NodeId) : EStateM Fault Graph Unit :=
  rules.forM fun rule => applyRule rule options fileName root

def normalize (options : Options) (fileName : Option String) (root : NodeId) :
    EStateM Fault Graph Unit :=
  applyRules Rule.all options fileName root

end Graph
end LinkedSchema
