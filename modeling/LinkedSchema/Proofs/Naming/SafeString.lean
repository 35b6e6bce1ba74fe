import LinkedSchema.Proofs.Naming.Allocator
/-! Names are made of characters that can stand in an identifier, and of nothing else. -/
namespace LinkedSchema

variable {c : Char} {cs : List Char} {text : String}

namespace SafeString

theorem isNameChar_of_isAlpha (letter : c.isAlpha = true) : isNameChar c = true := by
  simp [isNameChar, isNameStart, letter]

theorem isNameChar_toUpper (name : isNameChar c = true) : isNameChar c.toUpper = true := by
  delta Char.toUpper
  split
  · rename_i small
    refine isNameChar_of_isAlpha (Bool.or_eq_true_iff.mpr (.inl ?_))
    delta Char.isUpper
    rw [decide_eq_true_iff]
    have moved : (c.val + ('A'.val - 'a'.val)).toNat = (c.val.toNat + 4294967264) % 4294967296 := by
      rw [UInt32.toNat_add]
      rfl
    have range : 97 ≤ c.val.toNat ∧ c.val.toNat ≤ 122 := small
    change 65 ≤ (c.val + ('A'.val - 'a'.val)).toNat ∧ (c.val + ('A'.val - 'a'.val)).toNat ≤ 90
    omega
  · exact name

/-- Characters of names, and spaces between them. -/
def IsWordText (cs : List Char) : Prop := ∀ c ∈ cs, isNameChar c = true ∨ c = ' '

theorem isWordText_blankInvalid (cs : List Char) : IsWordText (blankInvalid cs) := by
  intro c hc
  obtain ⟨d, _, rfl⟩ := List.mem_map.mp hc
  split
  · rename_i name
    exact .inl name
  · exact .inr rfl

theorem isWord_toUpper (word : isNameChar c = true ∨ c = ' ') :
    isNameChar c.toUpper = true ∨ c.toUpper = ' ' := by
  rcases word with name | rfl
  · exact .inl (isNameChar_toUpper name)
  · exact .inr rfl

theorem isWordText_capitalizePrivate (words : IsWordText cs) :
    IsWordText (capitalizePrivate cs) := by
  unfold capitalizePrivate
  split
  · rename_i c rest
    intro d hd
    rcases List.mem_cons.mp hd with rfl | hd
    · exact words _ List.mem_cons_self
    · rcases List.mem_cons.mp hd with rfl | hd
      · exact isWord_toUpper (words c (by simp))
      · exact words d (by simp [hd])
  · exact words

theorem isWordText_joinSegments (words : IsWordText cs) : IsWordText (joinSegments cs) := by
  fun_induction joinSegments cs with
  | case1 => exact words
  | case2 c rest small ih =>
    intro d hd
    rcases List.mem_cons.mp hd with rfl | hd
    · exact isWord_toUpper (words c (by simp))
    · exact ih (fun e he => words e (by simp [he])) d hd
  | case3 c rest big ih =>
    intro d hd
    rcases List.mem_cons.mp hd with rfl | hd
    · exact words _ List.mem_cons_self
    · exact ih (fun e he => words e (List.mem_cons_of_mem _ he)) d hd
  | case4 c rest _ ih =>
    intro d hd
    rcases List.mem_cons.mp hd with rfl | hd
    · exact words _ List.mem_cons_self
    · exact ih (fun e he => words e (List.mem_cons_of_mem _ he)) d hd

theorem isWordText_capitalizeWords (fresh : Bool) (words : IsWordText cs) :
    IsWordText (capitalizeWords fresh cs) := by
  induction cs generalizing fresh with
  | nil => exact words
  | cons c rest ih =>
    intro d hd
    rcases List.mem_cons.mp hd with rfl | hd
    · split
      · exact isWord_toUpper (words c List.mem_cons_self)
      · exact words c List.mem_cons_self
    · exact ih _ (fun e he => words e (List.mem_cons_of_mem _ he)) d hd

end SafeString

open SafeString

theorem isNameChar_safeString (text : String) :
    ∀ c ∈ (safeString text).toList, isNameChar c = true := by
  intro c hc
  rw [safeString, String.toList_ofList, ofChars, List.mem_filter] at hc
  have words := isWordText_capitalizeWords true (isWordText_joinSegments
    (isWordText_capitalizePrivate (isWordText_blankInvalid
      (blankOpening (deburr text.toList)))))
  exact (words c hc.1).resolve_right (by simpa using hc.2)

namespace UsedNames

theorem isNameChar_intText (k : Nat) : ∀ c ∈ (intText k).toList, isNameChar c = true := by
  intro c hc
  have digit : c.isDigit = true := by
    rw [intText_natCast, Nat.repr, String.toList_ofList] at hc
    exact Nat.isDigit_of_mem_toDigits (by decide) (by decide) hc
  have range : 48 ≤ c.toNat ∧ c.toNat ≤ 57 := by
    simpa [Char.isDigit, UInt32.le_iff_toNat_le] using digit
  have ascii : c.toNat < 0x80 := by omega
  simp [isNameChar, isDecimalDigit, ascii, digit]

theorem isNameChar_numbered (used : UsedNames) {base : String}
    (named : ∀ c ∈ base.toList, isNameChar c = true) (fuel k : Nat) :
    ∀ c ∈ (used.numbered base fuel k).toList, isNameChar c = true := by
  have one (k : Nat) : ∀ c ∈ (base ++ intText k).toList, isNameChar c = true := by
    intro c hc
    rw [String.toList_append] at hc
    exact (List.mem_append.mp hc).elim (named c) (isNameChar_intText k c)
  induction fuel generalizing k with
  | zero => exact one k
  | succ fuel ih =>
    unfold numbered
    split
    · exact ih (k + 1)
    · exact one k

theorem isNameChar_allocate (used : UsedNames) (source : String) :
    ∀ c ∈ (used.allocate source).1.toList, isNameChar c = true := by
  have named : ∀ c ∈ (base source).toList, isNameChar c = true := by
    unfold base
    extract_lets safe
    split
    · exact List.all_eq_true.mp (by decide)
    · exact isNameChar_safeString source
  change ∀ c ∈ (used.fresh (base source)).toList, isNameChar c = true
  unfold fresh
  split
  · exact isNameChar_numbered used named _ _
  · exact named

end UsedNames
end LinkedSchema
