import LinkedSchema.Text.Blank
import LinkedSchema.Text.Combining
import LinkedSchema.Text.DecimalDigit
import LinkedSchema.Text.Decomposition
/-! Identifiers in PascalCase made from arbitrary text. Accents are dropped, what cannot stand in
an identifier separates words, and each word is capitalized. -/
namespace LinkedSchema
namespace SafeString

/-- Characters that an identifier may start with. -/
def isNameStart (c : Char) : Bool := c.isAlpha || c == '_' || c == '$'

def isNameChar (c : Char) : Bool := isNameStart c || isDecimalDigit c

/-- Decomposes all characters and leaves the marks out. -/
def deburr (cs : List Char) : List Char :=
  (cs.flatMap Decomposition.ofChar).filter (!isCombining ·)

/-- White space at the start becomes one space, together with the character after it if no
identifier starts with that one. -/
def blankOpening (cs : List Char) : List Char :=
  match cs.dropWhile isBlank with
  | [] => if cs.isEmpty then [] else [' ']
  | c :: rest =>
    if isNameStart c then (if (cs.head?.map isBlank).getD false then ' ' :: c :: rest else cs)
    else ' ' :: rest

/-- A space for every character that cannot stand in an identifier. -/
def blankInvalid (cs : List Char) : List Char :=
  cs.map fun c => if isNameChar c then c else ' '

/-- Capitalizes the letter after an underscore at the start. -/
def capitalizePrivate : List Char → List Char
  | '_' :: c :: rest => '_' :: c.toUpper :: rest
  | cs => cs

/-- Drops underscores that small letters follow, and capitalizes these letters. -/
def joinSegments : List Char → List Char
  | [] => []
  | '_' :: c :: rest =>
    if c.isLower then c.toUpper :: joinSegments rest else '_' :: joinSegments (c :: rest)
  | c :: rest => c :: joinSegments rest

/-- Characters that a new word starts after. -/
def endsWord (c : Char) : Bool := c == ' ' || c == '$' || isDecimalDigit c

/-- Capitalizes every letter after the end of a word; `fresh` tells whether one is to start. -/
def capitalizeWords : Bool → List Char → List Char
  | _, [] => []
  | fresh, c :: rest => (if fresh then c.toUpper else c) :: capitalizeWords (endsWord c) rest

def ofChars (cs : List Char) : List Char :=
  (capitalizeWords true
    (joinSegments (capitalizePrivate (blankInvalid (blankOpening (deburr cs)))))).filter (· != ' ')

end SafeString

def safeString (text : String) : String := .ofList (SafeString.ofChars text.toList)

end LinkedSchema
