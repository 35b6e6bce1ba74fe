/-! JSON values. Objects keep the order of their entries; integers and floating-point numbers are
different kinds, and integers have any size. -/
namespace LinkedSchema

/-- A JSON value. Readers of entries take the first one of a name. -/
inductive Json where
  | null
  | bool (b : Bool)
  | int (n : Int)
  | float (x : Float)
  | str (s : String)
  | arr (items : List Json)
  | obj (entries : List (String × Json))
  deriving Inhabited

namespace Json

def isNull : Json → Bool
  | .null => true
  | _ => false

/-- Whether the value counts as given: null, false, zero and all that is empty do not. -/
def truthy : Json → Bool
  | .null => false
  | .bool b => b
  | .int n => n != 0
  | .float x => x != 0.0
  | .str s => !s.isEmpty
  | .arr items => !items.isEmpty
  | .obj entries => !entries.isEmpty

/-- The value itself if it counts as given, and zero otherwise. -/
def orZero (v : Json) : Json := if v.truthy then v else .int 0

/-- Whether the value is this very text. -/
def isStr (v : Json) (text : String) : Bool :=
  match v with
  | .str s => s == text
  | _ => false

def isText : Json → Bool
  | .str _ => true
  | _ => false

def isBool : Json → Bool
  | .bool _ => true
  | _ => false

def isArr : Json → Bool
  | .arr _ => true
  | _ => false

def isObj : Json → Bool
  | .obj _ => true
  | _ => false

/-- Integers, with true as one and false as zero. -/
def int? : Json → Option Int
  | .bool b => some (if b then 1 else 0)
  | .int n => some n
  | _ => none

/-- A number proper: an integer or a floating-point number, and not a boolean. -/
def isNumber : Json → Bool
  | .int _ | .float _ => true
  | _ => false

/-- The elements of a value that can be gone through one by one: those of a list, the characters
of a text, the names of an object. -/
def elements? : Json → Option (List Json)
  | .arr items => some items
  | .str s => some (s.toList.map fun c => .str (String.singleton c))
  | .obj entries => some (entries.map fun e => .str e.1)
  | _ => none

end Json
end LinkedSchema
