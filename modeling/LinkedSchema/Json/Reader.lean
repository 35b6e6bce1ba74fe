import LinkedSchema.Json.Value
/-! Reading JSON text. A number with a point or an exponent is a floating-point number, the double
nearest to it, and any other is an integer. Entries keep the order of the text. -/
namespace LinkedSchema
namespace Json

def isJsonBlank (c : Char) : Bool := c == ' ' || c == '\t' || c == '\n' || c == '\r'

def skipBlank (cs : List Char) : List Char := cs.dropWhile isJsonBlank

/-- Takes the literal off the start. -/
def dropLiteral? : List Char → List Char → Option (List Char)
  | [], cs => some cs
  | x :: xs, c :: cs => if x == c then dropLiteral? xs cs else none
  | _ :: _, [] => none

def hexValue? (c : Char) : Option Nat :=
  if c.isDigit then some (c.toNat - 48)
  else if 'a' ≤ c && c ≤ 'f' then some (c.toNat - 87)
  else if 'A' ≤ c && c ≤ 'F' then some (c.toNat - 55)
  else none

/-- The four hexadecimal digits of an escape. -/
def readCode? : List Char → Option (Nat × List Char)
  | a :: b :: c :: d :: rest => do
    let w ← hexValue? a
    let x ← hexValue? b
    let y ← hexValue? c
    let z ← hexValue? d
    some (4096 * w + 256 * x + 16 * y + z, rest)
  | _ => none

/-- The character of an escape whose backslash is read; a pair of surrogates is one character. -/
def readEscape? : List Char → Option (Char × List Char)
  | 'n' :: rest => some ('\n', rest)
  | 'r' :: rest => some ('\r', rest)
  | 't' :: rest => some ('\t', rest)
  | 'b' :: rest => some ('\x08', rest)
  | 'f' :: rest => some ('\x0c', rest)
  | 'u' :: rest => do
    let (high, rest) ← readCode? rest
    match rest with
    | '\\' :: 'u' :: after =>
      if 0xD800 ≤ high ∧ high < 0xDC00 then
        let (low, after) ← readCode? after
        some (.ofNat (0x10000 + 1024 * (high - 0xD800) + (low - 0xDC00)), after)
      else some (.ofNat high, rest)
    | _ => some (.ofNat high, rest)
  | c :: rest => some (c, rest)
  | [] => none

/-- The rest of a text whose opening quote is read; the characters so far stand backwards. -/
def readText? : Nat → List Char → List Char → Option (String × List Char)
  | 0, _, _ => none
  | _ + 1, done, '"' :: rest => some (.ofList done.reverse, rest)
  | fuel + 1, done, '\\' :: rest => do
    let (c, rest) ← readEscape? rest
    readText? fuel (c :: done) rest
  | fuel + 1, done, c :: rest => readText? fuel (c :: done) rest
  | _ + 1, _, [] => none

def digitsValue (cs : List Char) : Nat := cs.foldl (fun n c => 10 * n + (c.toNat - 48)) 0

def takeDigits (cs : List Char) : List Char × List Char := cs.span Char.isDigit

/-- The exponent of a number, if one is written, with what follows. -/
def readExponent : List Char → Option Int × List Char
  | e :: '-' :: rest =>
    if e.toLower == 'e' then
      let (digits, rest) := takeDigits rest
      (some (-(digitsValue digits : Int)), rest)
    else (none, e :: '-' :: rest)
  | e :: '+' :: rest =>
    if e.toLower == 'e' then
      let (digits, rest) := takeDigits rest
      (some (digitsValue digits : Int), rest)
    else (none, e :: '+' :: rest)
  | e :: rest =>
    if e.toLower == 'e' then
      let (digits, rest) := takeDigits rest
      (some (digitsValue digits : Int), rest)
    else (none, e :: rest)
  | [] => (none, [])

def floatOf (negative : Bool) (digits : Nat) (exponent : Int) : Float :=
  let size : Float := .ofScientific digits (exponent < 0) exponent.natAbs
  if negative then -size else size

/-- A number whose sign is read. -/
def readNumber? (negative : Bool) (cs : List Char) : Option (Json × List Char) :=
  let (whole, rest) := takeDigits cs
  if whole.isEmpty then none
  else
    let (decimals, rest, pointed) :=
      match rest with
      | '.' :: after =>
        let (decimals, after) := takeDigits after
        (decimals, after, true)
      | _ => ([], rest, false)
    let (exponent, rest) := readExponent rest
    if pointed || exponent.isSome then
      let scale := exponent.getD 0 - decimals.length
      some (.float (floatOf negative (digitsValue (whole ++ decimals)) scale), rest)
    else
      let size : Int := digitsValue whole
      some (.int (if negative then -size else size), rest)

mutual

/-- A value with what follows it. The fuel bounds the steps; every other step reads a character. -/
def readValue? : Nat → List Char → Option (Json × List Char)
  | 0, _ => none
  | fuel + 1, cs =>
    match skipBlank cs with
    | '"' :: rest => do
      let (s, rest) ← readText? (rest.length + 1) [] rest
      some (.str s, rest)
    | '[' :: rest =>
      match skipBlank rest with
      | ']' :: after => some (.arr [], after)
      | _ => do
        let (items, rest) ← readItems? fuel rest
        some (.arr items, rest)
    | '\x7b' :: rest =>
      match skipBlank rest with
      | '\x7d' :: after => some (.obj [], after)
      | _ => do
        let (entries, rest) ← readEntries? fuel rest
        some (.obj entries, rest)
    | 'n' :: rest => (dropLiteral? ['u', 'l', 'l'] rest).map (.null, ·)
    | 't' :: rest => (dropLiteral? ['r', 'u', 'e'] rest).map (.bool true, ·)
    | 'f' :: rest => (dropLiteral? ['a', 'l', 's', 'e'] rest).map (.bool false, ·)
    | '-' :: rest => readNumber? true rest
    | rest => readNumber? false rest

/-- The items of a list up to its bracket. -/
def readItems? : Nat → List Char → Option (List Json × List Char)
  | 0, _ => none
  | fuel + 1, cs => do
    let (v, rest) ← readValue? fuel cs
    match skipBlank rest with
    | ',' :: rest => do
      let (items, rest) ← readItems? fuel rest
      some (v :: items, rest)
    | ']' :: rest => some ([v], rest)
    | _ => none

/-- The entries of an object up to its bracket. -/
def readEntries? : Nat → List Char → Option (List (String × Json) × List Char)
  | 0, _ => none
  | fuel + 1, cs => do
    match skipBlank cs with
    | '"' :: rest => do
      let (name, rest) ← readText? (rest.length + 1) [] rest
      match skipBlank rest with
      | ':' :: rest => do
        let (v, rest) ← readValue? fuel rest
        match skipBlank rest with
        | ',' :: rest => do
          let (entries, rest) ← readEntries? fuel rest
          some ((name, v) :: entries, rest)
        | '\x7d' :: rest => some ([(name, v)], rest)
        | _ => none
      | _ => none
    | _ => none

end

/-- The value that the whole text stands for. -/
def ofText? (text : String) : Option Json :=
  let cs := text.toList
  match readValue? (2 * cs.length + 2) cs with
  | some (v, rest) => if (skipBlank rest).isEmpty then some v else none
  | none => none

end Json
end LinkedSchema
