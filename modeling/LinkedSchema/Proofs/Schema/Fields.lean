import LinkedSchema.Schema.Graph
/-! Fields of the types that they are declared with. -/
namespace LinkedSchema
namespace Json

/-- A type is absent, a name, or a list of names. -/
def NamesTypes : Json → Prop
  | .null | .str _ => True
  | .arr types => ∀ v ∈ types, v.isText
  | _ => False

instance : (v : Json) → Decidable v.NamesTypes
  | .null | .str _ => .isTrue trivial
  | .arr types => inferInstanceAs (Decidable (∀ v ∈ types, v.isText))
  | .bool _ | .int _ | .float _ | .obj _ => .isFalse id

end Json

namespace Graph

def NamesTypes (g : Graph) : Prop := ∀ i < g.size, (g.node i).type.NamesTypes

instance (g : Graph) : Decidable g.NamesTypes :=
  inferInstanceAs (Decidable (∀ i < g.size, (g.node i).type.NamesTypes))

end Graph
end LinkedSchema
