import LinkedSchema.Json.NumberText
import LinkedSchema.Json.Value
import LinkedSchema.Text.Hex
/-! JSON text. All output is ASCII. -/
namespace LinkedSchema

/-- Where blanks and line ends stand in JSON text. With an `indent`, every item has a line of its
own. -/
structure Layout where
  itemMark : String
  nameMark : String
  indent : Option Nat
  deriving DecidableEq

namespace Layout

/-- All on one line, without any blank. -/
def dense : Layout := ⟨",", ":", none⟩

/-- All on one line, with a blank after each comma and colon. -/
def line : Layout := ⟨", ", ": ", none⟩

def indented (width : Nat) : Layout := ⟨",", ": ", some width⟩

/-- What stands before an item at a depth. -/
def lineBreak (l : Layout) (depth : Nat) : String :=
  match l.indent with
  | none => ""
  | some width => "\n" ++ .ofList (List.replicate (depth * width) ' ')

/-- Items between two brackets; nothing stands between the brackets of an empty container. -/
def bracket (l : Layout) (depth : Nat) (opening closing : String) (items : List String) : String :=
  if items.isEmpty then opening ++ closing
  else
    let before := l.lineBreak (depth + 1)
    opening ++ before ++ (l.itemMark ++ before).intercalate items ++ l.lineBreak depth ++ closing

end Layout

namespace Json

/-- The code of a character beyond ASCII; above U+FFFF a pair of surrogates stands for it. -/
def codeText (code : Nat) : String :=
  if code < 0x10000 then "\\u" ++ hexText 4 code
  else
    "\\u" ++ hexText 4 (0xD800 + (code - 0x10000) / 0x400) ++
      "\\u" ++ hexText 4 (0xDC00 + (code - 0x10000) % 0x400)

def charText (c : Char) : String :=
  if c == '"' then "\\\""
  else if c == '\\' then "\\\\"
  else if c == '\n' then "\\n"
  else if c == '\r' then "\\r"
  else if c == '\t' then "\\t"
  else if c.toNat = 8 then "\\b"
  else if c.toNat = 12 then "\\f"
  else if 0x20 ≤ c.toNat ∧ c.toNat ≤ 0x7E then .singleton c
  else codeText c.toNat

def stringText (s : String) : String := "\"" ++ .join (s.toList.map charText) ++ "\""

mutual

/-- The text of a value that stands at a depth. -/
def textAt (l : Layout) (depth : Nat) : Json → String
  | .null => "null"
  | .bool true => "true"
  | .bool false => "false"
  | .int n => intText n
  | .float x => floatText x
  | .str s => stringText s
  | .arr items => l.bracket depth "[" "]" (itemTexts l (depth + 1) items)
  | .obj entries => l.bracket depth "\x7b" "\x7d" (entryTexts l (depth + 1) entries)

def itemTexts (l : Layout) (depth : Nat) : List Json → List String
  | [] => []
  | v :: rest => textAt l depth v :: itemTexts l depth rest

def entryTexts (l : Layout) (depth : Nat) : List (String × Json) → List String
  | [] => []
  | (name, v) :: rest =>
    (stringText name ++ l.nameMark ++ textAt l depth v) :: entryTexts l depth rest

end

def text (l : Layout) (v : Json) : String := v.textAt l 0

end Json
end LinkedSchema
