import LinkedSchema.Proofs.Naming.Opening
import Mathlib
/-! Names are in PascalCase over letters, digits, underscores and dollar signs. Which characters may
stand side by side is followed through the substitutions: underscores lose the small letters after
them first, then all other ends of words do, and leaving the spaces out brings nothing together that
was not told apart by them. -/
namespace LinkedSchema

variable {c d : Char} {cs : List Char}

namespace CodeRange

/-- Whether two sets of ranges have no code point in common. -/
def apart (rs ss : List CodeRange) : Bool :=
  rs.all fun r => ss.all fun s => decide (r.2 < s.1) || decide (s.2 < r.1)

theorem not_anyHolds_of_apart {rs ss : List CodeRange} (disjoint : apart rs ss = true)
    (held : anyHolds rs c = true) : anyHolds ss c = false := by
  rw [← Bool.not_eq_true]
  intro also
  obtain ⟨r, hr, inside⟩ := List.any_eq_true.mp held
  obtain ⟨s, hs, within⟩ := List.any_eq_true.mp also
  have between := List.all_eq_true.mp (List.all_eq_true.mp disjoint r hr) s hs
  simp only [holds, Bool.and_eq_true, Bool.or_eq_true, decide_eq_true_eq] at inside within between
  omega

end CodeRange

/-- No digit is white space, in any script. -/
theorem isBlank_of_isDecimalDigit (digit : isDecimalDigit c = true) : isBlank c = false := by
  unfold isDecimalDigit at digit
  split at digit
  · rename_i ascii
    have apart : (!c.isDigit || !isBlank c) = true :=
      ascii_forall (p := fun c => !c.isDigit || !isBlank c) (by decide +kernel) ascii
    simpa [digit] using apart
  · exact CodeRange.not_anyHolds_of_apart (by decide +kernel) digit

namespace SafeString

theorem isBlank_of_isNameStart (start : isNameStart c = true) : isBlank c = false := by
  have apart : (!isNameStart c || !isBlank c) = true :=
    ascii_forall (p := fun c => !isNameStart c || !isBlank c) (by decide +kernel)
      (ascii_of_isNameStart start)
  rw [start] at apart
  exact (Bool.not_eq_true' _).mp apart

/-- What no small letter comes after: the end of a word, or an underscore. -/
def isBreak (c : Char) : Bool := c == '_' || endsWord c

/-- The second of two neighbours is no small letter after a break. -/
def Cased (c d : Char) : Prop := d.isLower = true → isBreak c = false

/-- The second of two neighbours is no small letter after an underscore. -/
def Joined (c d : Char) : Prop := d.isLower = true → c ≠ '_'

/-- Capitals are breaks where small letters are: nowhere. -/
theorem isBreak_toUpper (c : Char) : isBreak c.toUpper = isBreak c := by
  by_cases ascii : c.toNat < 128
  · have same : (isBreak c.toUpper == isBreak c) = true :=
      ascii_forall (p := fun c => isBreak c.toUpper == isBreak c) (by decide +kernel) ascii
    exact beq_iff_eq.mp same
  · rw [toUpper_of_not_ascii ascii]

/-- A small letter comes first once the underscores are joined only where it came first before. -/
theorem head?_joinSegments (first : (joinSegments cs).head? = some d) (small : d.isLower = true) :
    cs.head? = some d := by
  fun_cases joinSegments cs with
  | case1 => exact first
  | case2 c rest lower =>
    rw [joinSegments, if_pos lower] at first
    cases first
    rw [Char.isLower_toUpper_eq_false] at small
    cases small
  | case3 c rest big =>
    rw [joinSegments, if_neg big] at first
    exact first
  | case4 c rest other =>
    rw [joinSegments.eq_3 _ _ other] at first
    exact first

/-- No small letter is left after an underscore. -/
theorem isChain_joinSegments (cs : List Char) : (joinSegments cs).IsChain Joined := by
  fun_induction joinSegments cs with
  | case1 => exact .nil
  | case2 c rest lower ih =>
    refine ih.cons fun d _ _ score => ?_
    have inner : (!c.isLower || c.toUpper != '_') = true :=
      ascii_forall (p := fun c => !c.isLower || c.toUpper != '_') (by decide +kernel)
        (ascii_of_isNameStart (by simp [isNameStart, Char.isAlpha, lower]))
    simp [lower, score] at inner
  | case3 c rest big ih =>
    refine ih.cons fun d first small => ?_
    cases head?_joinSegments first small
    exact absurd small big
  | case4 c rest other ih =>
    refine ih.cons fun d first small score => ?_
    have next := head?_joinSegments first small
    cases rest with
    | nil => cases next
    | cons e rest => exact other _ _ score rfl

/-- The letter after the end of a word is made a capital, and after an underscore it is one. -/
theorem isChain_capitalizeWords (same : isBreak c = isBreak d) (chain : (d :: cs).IsChain Joined) :
    (c :: capitalizeWords (endsWord d) cs).IsChain Cased := by
  induction cs generalizing c d with
  | nil => exact .singleton c
  | cons e rest ih =>
    obtain ⟨joined, after⟩ := List.isChain_cons_cons.mp chain
    rw [capitalizeWords]
    split
    · refine .cons_cons (fun small => ?_) (ih (isBreak_toUpper e) after)
      rw [Char.isLower_toUpper_eq_false] at small
      cases small
    · rename_i within
      refine .cons_cons (fun small => ?_) (ih rfl after)
      rw [same, isBreak, beq_false_of_ne (joined small), Bool.false_or]
      exact Bool.not_eq_true _ ▸ within

/-- What follows a space is no small letter, so it can move up to anything. -/
theorem isChain_filter_space (chain : (c :: cs).IsChain Cased) :
    (c :: cs.filter (· != ' ')).IsChain Cased := by
  induction cs generalizing c with
  | nil => exact .singleton c
  | cons d rest ih =>
    obtain ⟨here, after⟩ := List.isChain_cons_cons.mp chain
    rw [List.filter_cons]
    split
    · exact .cons_cons here (ih after)
    · rename_i space
      have blank : d = ' ' := by simpa using space
      subst blank
      refine (ih after).imp_head fun {e} capital small => ?_
      cases capital small

/-- Put behind a space, the characters of a name are cased throughout. -/
theorem isChain_ofChars (cs : List Char) : (' ' :: ofChars cs).IsChain Cased := by
  have joined := isChain_joinSegments (capitalizePrivate (blankInvalid (blankOpening (deburr cs))))
  refine isChain_filter_space ?_
  exact isChain_capitalizeWords (d := ' ') rfl (joined.cons fun _ _ _ => by decide)

/-- No small letter is first in a name, or comes after a break. -/
theorem exists_before_of_isLower {before after : List Char}
    (cut : ofChars cs = before ++ c :: after) (small : c.isLower = true) :
    ∃ start d, before = start ++ [d] ∧ isBreak d = false := by
  have chain := isChain_ofChars cs
  rw [cut, ← List.cons_append] at chain
  have last : ∀ d ∈ (' ' :: before).getLast?, isBreak d = false :=
    fun d hd => (List.isChain_append.mp chain).2.2 d hd c rfl small
  rcases List.eq_nil_or_concat' before with rfl | ⟨start, d, rfl⟩
  · cases last ' ' rfl
  · refine ⟨start, d, rfl, last d ?_⟩
    rw [← List.cons_append, List.getLast?_concat, Option.mem_some]

end SafeString

open SafeString

/-- Safe strings are in PascalCase over a safe alphabet: letters of ASCII, underscores, dollar signs
and digits, and so neither white space nor anything that ends a comment. A small letter always has a
character before it, and that one is neither an underscore, a dollar sign nor a digit. -/
theorem safeString_pascalCase (text : String) :
    (∀ c ∈ (safeString text).toList,
      (c.isAlpha = true ∨ c = '_' ∨ c = '$' ∨ isDecimalDigit c = true) ∧
        isBlank c = false ∧ c ∉ ['#', '*', '/']) ∧
    ∀ before c after, (safeString text).toList = before ++ c :: after → c.isLower = true →
      ∃ start d, before = start ++ [d] ∧ d ≠ '_' ∧ d ≠ '$' ∧ isDecimalDigit d = false := by
  refine ⟨fun c hc => ?_, fun before c after cut small => ?_⟩
  · have name := isNameChar_safeString text c hc
    have kinds : (c.isAlpha = true ∨ c = '_' ∨ c = '$') ∨ isDecimalDigit c = true := by
      simpa [isNameChar, isNameStart, or_assoc] using name
    refine ⟨by simpa [or_assoc] using kinds, ?_, ?_⟩
    · exact kinds.elim (fun start => isBlank_of_isNameStart (by simpa [isNameStart, or_assoc]))
        isBlank_of_isDecimalDigit
    · intro bad
      have other : (['#', '*', '/'].all (!isNameChar ·)) = true := by decide +kernel
      have apart := List.all_eq_true.mp other c bad
      rw [name] at apart
      cases apart
  · rw [safeString, String.toList_ofList] at cut
    obtain ⟨start, d, rfl, inner⟩ := exists_before_of_isLower cut small
    have kinds : d ≠ '_' ∧ d ≠ ' ' ∧ d ≠ '$' ∧ isDecimalDigit d = false := by
      simpa [isBreak, endsWord, and_assoc] using inner
    exact ⟨start, d, rfl, kinds.1, kinds.2.2⟩

/-- Letters that come together only as the spaces go are told apart before. -/
example : safeString "_ b$ c1*d__e" = "_B$C1D_E" := by decide +kernel

end LinkedSchema
