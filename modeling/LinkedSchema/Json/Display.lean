import LinkedSchema.Json.NumberText
import LinkedSchema.Json.Value
import LinkedSchema.Text.Quoted
/-! JSON values inside running text: in messages and in the lines of a description. -/
namespace LinkedSchema
namespace Json

mutual

/-- The value with its texts in quotes. -/
def shown : Json → String
  | .null => "None"
  | .bool true => "True"
  | .bool false => "False"
  | .int n => intText n
  | .float x => floatText x
  | .str s => quoted s
  | .arr items => "[" ++ ", ".intercalate (shownItems items) ++ "]"
  | .obj entries => "\x7b" ++ ", ".intercalate (shownEntries entries) ++ "\x7d"

def shownItems : List Json → List String
  | [] => []
  | v :: rest => v.shown :: shownItems rest

def shownEntries : List (String × Json) → List String
  | [] => []
  | (name, v) :: rest => (quoted name ++ ": " ++ v.shown) :: shownEntries rest

end

/-- The value as a part of a sentence: a text stands there as it is. -/
def plain : Json → String
  | .str s => s
  | v => v.shown

end Json
end LinkedSchema
