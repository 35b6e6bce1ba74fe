import LinkedSchema.Proofs.Naming.Allocator
import LinkedSchema.Proofs.Naming.SafeString
/-! What names begin with. All steps after the first one keep the kind of the first character that
is not a space, so the start of the text decides. -/
namespace LinkedSchema

variable {c : Char} {cs : List Char}

/-- A property of the ASCII characters, checked for one after the other. -/
theorem ascii_forall {p : Char → Bool} (each : ∀ k < 128, p (Char.ofNat k) = true)
    (ascii : c.toNat < 128) : p c = true := by
  have here := each c.toNat ascii
  rwa [Char.ofNat_toNat] at here

namespace SafeString

theorem ascii_of_isNameStart (start : isNameStart c = true) : c.toNat < 128 := by
  rw [isNameStart, Bool.or_eq_true, Bool.or_eq_true, beq_iff_eq, beq_iff_eq] at start
  rcases start with (letter | rfl) | rfl
  · delta Char.isAlpha Char.isUpper Char.isLower at letter
    simp only [Bool.or_eq_true, Bool.and_eq_true, decide_eq_true_eq] at letter
    change (65 ≤ c.toNat ∧ c.toNat ≤ 90) ∨ (97 ≤ c.toNat ∧ c.toNat ≤ 122) at letter
    omega
  · decide
  · decide

/-- Nothing that a name may start with is a digit. -/
theorem isDecimalDigit_of_isNameStart (start : isNameStart c = true) :
    isDecimalDigit c = false := by
  have apart : (!isNameStart c || !isDecimalDigit c) = true :=
    ascii_forall (p := fun c => !isNameStart c || !isDecimalDigit c) (by decide +kernel)
      (ascii_of_isNameStart start)
  simpa [start] using apart

theorem toUpper_of_not_ascii (beyond : ¬ c.toNat < 128) : c.toUpper = c := by
  delta Char.toUpper
  split
  · rename_i small
    have range : 97 ≤ c.toNat ∧ c.toNat ≤ 122 := small
    omega
  · rfl

/-- Capitals start names where small letters do, and no other character is made a space. -/
theorem kind_toUpper (c : Char) :
    isNameStart c.toUpper = isNameStart c ∧ (c.toUpper != ' ') = (c != ' ') := by
  by_cases ascii : c.toNat < 128
  · have same : (isNameStart c.toUpper == isNameStart c &&
        (c.toUpper != ' ') == (c != ' ')) = true :=
      ascii_forall (p := fun c => isNameStart c.toUpper == isNameStart c &&
        (c.toUpper != ' ') == (c != ' ')) (by decide +kernel) ascii
    simpa only [Bool.and_eq_true, beq_iff_eq] using same
  · rw [toUpper_of_not_ascii ascii]
    exact ⟨rfl, rfl⟩

/-- Whether a name may start with the first character that is not a space, if there is one. -/
def opening (cs : List Char) : Option Bool := (cs.find? (· != ' ')).map isNameStart

theorem opening_cons (c : Char) (cs : List Char) :
    opening (c :: cs) = if c != ' ' then some (isNameStart c) else opening cs := by
  unfold opening
  rw [List.find?_cons]
  split <;> rename_i given <;> simp [given]

theorem opening_toUpper (c : Char) (cs : List Char) :
    opening (c.toUpper :: cs) = opening (c :: cs) := by
  obtain ⟨start, space⟩ := kind_toUpper c
  rw [opening_cons, opening_cons, start, space]

theorem opening_capitalizePrivate : opening (capitalizePrivate cs) = opening cs := by
  unfold capitalizePrivate
  split
  · simp [opening_cons]
  · rfl

theorem opening_joinSegments : opening (joinSegments cs) = opening cs := by
  fun_induction joinSegments cs with
  | case1 => rfl
  | case2 c rest small ih =>
    -- the letter takes the place of the underscore, and both start names
    have letter : isNameStart c = true ∧ (c != ' ') = true := by
      have alpha : c.isAlpha = true := Bool.or_eq_true_iff.mpr (.inr small)
      refine ⟨by simp [isNameStart, alpha], ?_⟩
      rw [bne_iff_ne]
      rintro rfl
      cases small
    rw [opening_toUpper, opening_cons, opening_cons, letter.1, letter.2]
    rfl
  | case3 c rest big ih => simp [opening_cons]
  | case4 c rest other ih => rw [opening_cons, opening_cons, ih]

theorem opening_capitalizeWords (fresh : Bool) :
    opening (capitalizeWords fresh cs) = opening cs := by
  induction cs generalizing fresh with
  | nil => rfl
  | cons c rest ih =>
    rw [capitalizeWords]
    split
    · rw [opening_toUpper, opening_cons, opening_cons, ih]
    · rw [opening_cons, opening_cons, ih]

/-- What cannot stand in a name becomes a space. -/
theorem opening_blankInvalid :
    opening (blankInvalid cs) = (cs.find? isNameChar).map isNameStart := by
  induction cs with
  | nil => rfl
  | cons c rest ih =>
    rw [blankInvalid, List.map_cons, opening_cons, List.find?_cons]
    cases name : isNameChar c with
    | true =>
      have given : (c != ' ') = true := by
        rw [bne_iff_ne]
        rintro rfl
        exact absurd name (by decide)
      simp [given]
    | false => exact ih

/-- Whether a text hides a digit at its start: what comes first in it, blanks aside, starts no name,
and the first character after that which can stand in a name is a digit. -/
def hidesDigit (cs : List Char) : Bool :=
  match cs.dropWhile isBlank with
  | [] => false
  | c :: rest => !isNameStart c && ((rest.find? isNameChar).map isDecimalDigit).getD false

theorem isNameStart_eq_not (name : isNameChar c = true) : isNameStart c = !isDecimalDigit c := by
  cases start : isNameStart c with
  | true => rw [isDecimalDigit_of_isNameStart start]; rfl
  | false =>
    have digit : isDecimalDigit c = true := by simpa [isNameChar, start] using name
    rw [digit]
    rfl

theorem find?_space (cs : List Char) : (' ' :: cs).find? isNameChar = cs.find? isNameChar :=
  List.find?_cons_of_neg (by decide)

theorem find?_blankOpening_of_blank (blank : cs.dropWhile isBlank = []) :
    (blankOpening cs).find? isNameChar = none := by
  unfold blankOpening
  rw [blank]
  cases cs with
  | nil => rfl
  | cons c rest => exact find?_space []

theorem find?_blankOpening_of_start {rest : List Char} (left : cs.dropWhile isBlank = c :: rest)
    (start : isNameStart c = true) : (blankOpening cs).find? isNameChar = some c := by
  have first : (c :: rest).find? isNameChar = some c :=
    List.find?_cons_of_pos (by simp [isNameChar, start])
  unfold blankOpening
  rw [left]
  dsimp only
  rw [if_pos start]
  split
  · rw [find?_space, first]
  · rename_i filled
    cases cs with
    | nil => cases left
    | cons d ds =>
      rw [List.dropWhile_cons_of_neg (by simpa using filled)] at left
      rw [left, first]

/-- Only one character gives way at the start of a text. -/
theorem find?_blankOpening_of_other {rest : List Char} (left : cs.dropWhile isBlank = c :: rest)
    (other : isNameStart c = false) :
    (blankOpening cs).find? isNameChar = rest.find? isNameChar := by
  unfold blankOpening
  rw [left]
  dsimp only
  rw [if_neg (by simp [other]), find?_space]

theorem opening_blankOpening (cs : List Char) :
    ((blankOpening cs).find? isNameChar).map isNameStart = some false ↔ hidesDigit cs = true := by
  unfold hidesDigit
  cases left : cs.dropWhile isBlank with
  | nil => simp [find?_blankOpening_of_blank left]
  | cons c rest =>
    cases start : isNameStart c with
    | true => simp [find?_blankOpening_of_start left start, start]
    | false =>
      rw [find?_blankOpening_of_other left start]
      cases found : rest.find? isNameChar with
      | none => simp [found]
      | some d => simp [found, isNameStart_eq_not (List.find?_some found), start]

theorem head?_ofChars (cs : List Char) :
    (ofChars cs).head?.map isNameStart =
      ((blankOpening (deburr cs)).find? isNameChar).map isNameStart := by
  rw [ofChars, List.head?_filter, ← opening_blankInvalid, ← opening_capitalizePrivate,
    ← opening_joinSegments, ← opening_capitalizeWords true]
  rfl

end SafeString

open SafeString

namespace UsedNames

/-- A name is its base, with a numeral after it if need be. -/
theorem exists_numeral (used : UsedNames) (base : String) :
    ∃ numeral : String, used.fresh base = base ++ numeral := by
  by_cases taken : base ∈ used
  · obtain ⟨k, _, chosen⟩ := exists_search taken
    exact ⟨_, chosen⟩
  · exact ⟨"", by rw [fresh_of_not_mem taken, String.append_empty]⟩

theorem base_opening (source : String) :
    ∃ c rest, (base source).toList = c :: rest ∧ isNameChar c = true ∧
      (isNameStart c = false ↔ hidesDigit (deburr source.toList) = true) := by
  rw [← opening_blankOpening, ← head?_ofChars]
  unfold base
  have text : (safeString source).toList = ofChars source.toList := by
    rw [safeString, String.toList_ofList]
  cases safe : ofChars source.toList with
  | nil =>
    have empty : safeString source = "" := String.toList_injective (text.trans safe)
    have start : isNameStart 'N' = true := by decide
    exact ⟨'N', ['o', 'N', 'a', 'm', 'e'], by rw [empty]; rfl, by decide, by simp [start]⟩
  | cons c rest =>
    rw [safe] at text
    have given : (safeString source).isEmpty = false := by
      by_contra none
      simp [String.isEmpty_iff.mp (by simpa using none)] at text
    refine ⟨c, rest, by simpa [given] using text, ?_, by simp⟩
    exact isNameChar_safeString source c (by simp [text])

/-- A name is never empty. It starts with a letter, an underscore or a dollar sign, unless its
source hides a digit at its start once its characters are decomposed and the marks left out: then it
starts with a digit. -/
theorem allocate_opening (used : UsedNames) (source : String) :
    ∃ c rest, (used.allocate source).1.toList = c :: rest ∧
      (isNameStart c = true ↔ hidesDigit (deburr source.toList) = false) ∧
      (isDecimalDigit c = true ↔ hidesDigit (deburr source.toList) = true) := by
  obtain ⟨c, rest, named, name, hides⟩ := base_opening source
  obtain ⟨numeral, chosen⟩ := exists_numeral used (base source)
  have digit : isNameStart c = !isDecimalDigit c := isNameStart_eq_not name
  refine ⟨c, rest ++ numeral.toList, ?_, ?_, ?_⟩
  · show (used.fresh (base source)).toList = _
    rw [chosen, String.toList_append, named]
    rfl
  · rw [← Bool.not_eq_false, hides, Bool.not_eq_true]
  · rw [← hides, digit, Bool.not_eq_false']

/-- The name made of two digits is a digit, which no declaration can start with. -/
theorem allocate_numeral : ∃ c rest, (allocate [] "11").1.toList = c :: rest ∧
    isNameStart c = false :=
  ⟨'1', [], by decide +kernel, by decide⟩

end UsedNames
end LinkedSchema
