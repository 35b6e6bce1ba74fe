/-! The lines of a text. A line ends at a line feed, a carriage return, the two together, a
vertical tab, a form feed, one of the separators U+001C to U+001E, U+0085, U+2028 or U+2029. -/
namespace LinkedSchema

def isLineEnd (c : Char) : Bool :=
  (0x0A ≤ c.toNat && c.toNat ≤ 0x0D) || (0x1C ≤ c.toNat && c.toNat ≤ 0x1E) ||
    c == '\u0085' || c == '\u2028' || c == '\u2029'

/-- Splits off lines; the first argument holds the current line backwards. No line follows a line
end that stands last. -/
def linesFrom : List Char → List Char → List String
  | [], [] => []
  | line, [] => [.ofList line.reverse]
  | line, '\r' :: '\n' :: rest => .ofList line.reverse :: linesFrom [] rest
  | line, c :: rest =>
    if isLineEnd c then .ofList line.reverse :: linesFrom [] rest else linesFrom (c :: line) rest

def linesOf (text : String) : List String := linesFrom [] text.toList

end LinkedSchema
