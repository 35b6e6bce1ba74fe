import LinkedSchema.Json.Value
/-! Why a document is refused as a schema. -/
namespace LinkedSchema

/-- The kind of a value as messages name it. -/
def Json.kindName : Json → String
  | .null => "NoneType"
  | .bool _ => "bool"
  | .int _ => "int"
  | .float _ => "float"
  | .str _ => "str"
  | .arr _ => "list"
  | .obj _ => "object"

/-- What was found in place of a schema, under the keyword that asks for one. -/
inductive Refusal where
  | root (found : Json)
  | schema (keyword : String) (found : Json)
  | list (keyword : String)
  | map (keyword : String)
  | link (name : String)
  | depth

def Refusal.message : Refusal → String
  | .root found => "Expected a schema object at the root, got " ++ found.kindName
  | .schema keyword found =>
    "Expected a schema object or boolean under '" ++ keyword ++ "', got " ++ found.kindName
  | .list keyword => "Expected a list of schemas under '" ++ keyword ++ "'"
  | .map keyword => "Expected an object of schemas under '" ++ keyword ++ "'"
  | .link name => "Expected a shared schema object named '" ++ name ++ "'"
  | .depth => "Expected a schema of finite depth"

end LinkedSchema
