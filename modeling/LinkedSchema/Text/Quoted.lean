import LinkedSchema.Text.Hex
import LinkedSchema.Text.Printable
/-! Texts in quotes, as messages show them. -/
namespace LinkedSchema

/-- A text is put in single quotes, or in double quotes if it holds a single and no double one. -/
def quoteMark (text : List Char) : Char :=
  if text.contains '\'' && !text.contains '"' then '"' else '\''

/-- A character inside quotes: the mark and the backslash are escaped, and what is not printable
is written as a name or a code of the least width that holds it. -/
def quotedChar (mark c : Char) : String :=
  if c == mark || c == '\\' then .ofList ['\\', c]
  else if c == '\n' then "\\n"
  else if c == '\r' then "\\r"
  else if c == '\t' then "\\t"
  else if isPrintable c then .singleton c
  else if c.toNat < 0x100 then "\\x" ++ hexText 2 c.toNat
  else if c.toNat < 0x10000 then "\\u" ++ hexText 4 c.toNat
  else "\\U" ++ hexText 8 c.toNat

def quoted (text : String) : String :=
  let mark := quoteMark text.toList
  .singleton mark ++ .join (text.toList.map (quotedChar mark)) ++ .singleton mark

end LinkedSchema
