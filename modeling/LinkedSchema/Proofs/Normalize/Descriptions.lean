import LinkedSchema.Normalize.Rules
import LinkedSchema.Proofs.Text.CommentEnd
import LinkedSchema.Proofs.Text.Lines
/-! The lines that document bounds, and the descriptions that they are written into. -/
namespace LinkedSchema

variable {c : Char} {v : Json} {n : Node} {text line : String}

/-- A character that neither ends a line nor takes part in the end of a comment. -/
def IsSafe (c : Char) : Bool := !isLineEnd c && c != '*' && c != '/'

theorem isSafe_of_isDigit (digit : c.isDigit = true) : IsSafe c = true := by
  have range : 48 ≤ c.toNat ∧ c.toNat ≤ 57 := by
    simpa [Char.isDigit, UInt32.le_iff_toNat_le] using digit
  have apart : ∀ d : Char, d.toNat < 48 ∨ 57 < d.toNat → c ≠ d := by
    rintro d outside rfl
    omega
  have star := apart '*' (by decide)
  have slash := apart '/' (by decide)
  have next := apart '\u0085' (by decide)
  have lineSep := apart '\u2028' (by decide)
  have paragraph := apart '\u2029' (by decide)
  simp [IsSafe, isLineEnd, star, slash, next, lineSep, paragraph]
  omega

namespace Json

theorem isSafe_intText {k : Int} : ∀ c ∈ (intText k).toList, IsSafe c = true := by
  intro c hc
  rw [intText, String.toList_append, List.mem_append, String.toList_ofList] at hc
  rcases hc with sign | digit
  · split at sign
    · have minus : c = '-' := by simpa using sign
      subst minus
      decide
    · simp at sign
  · exact isSafe_of_isDigit (Nat.isDigit_of_mem_toDigits (by decide) (by decide) digit)

theorem isSafe_plain (integer : v.int?.isSome) : ∀ c ∈ v.plain.toList, IsSafe c = true := by
  cases v with
  | int k => exact isSafe_intText
  | bool b => cases b <;> exact List.all_eq_true.mp (by decide)
  | null => cases integer
  | float x => cases integer
  | str s => cases integer
  | arr items => cases integer
  | obj entries => cases integer

end Json

/-- A bound is absent or an integer. -/
def Json.IsBound (v : Json) : Prop := v = .null ∨ v.int?.isSome

namespace Rule

theorem isSafe_boundLines (lower : n.minItems.IsBound) (upper : n.maxItems.IsBound) :
    ∀ line ∈ boundLines n, line.toList ≠ [] ∧ ∀ c ∈ line.toList, IsSafe c = true := by
  have safe : ∀ label : String, label.toList ≠ [] → label.toList.all IsSafe = true →
      ∀ v : Json, v.int?.isSome → (label ++ v.plain).toList ≠ [] ∧
        ∀ c ∈ (label ++ v.plain).toList, IsSafe c = true := by
    intro label filled letters v integer
    rw [String.toList_append]
    refine ⟨by simp [filled], fun c hc => ?_⟩
    rcases List.mem_append.mp hc with inLabel | inNumber
    · exact List.all_eq_true.mp letters c inLabel
    · exact Json.isSafe_plain integer c inNumber
  intro line hl
  rw [boundLines, List.mem_append] at hl
  rcases hl with least | most
  · split at least
    · rename_i given
      rw [List.mem_singleton.mp least]
      refine safe _ (by decide) (by decide) _ (lower.resolve_left ?_)
      intro absent
      rw [absent] at given
      cases given
    · cases least
  · split at most
    · cases most
    · rename_i given
      rw [List.mem_singleton.mp most]
      refine safe _ (by decide) (by decide) _ (upper.resolve_left ?_)
      intro absent
      rw [absent] at given
      exact given rfl

theorem isLine_of_isSafe (safe : line.toList ≠ [] ∧ ∀ c ∈ line.toList, IsSafe c = true) :
    IsLine line := by
  refine ⟨safe.1, fun c hc => ?_⟩
  have here := safe.2 c hc
  simp only [IsSafe, Bool.and_eq_true, Bool.not_eq_true'] at here
  exact here.1.1

theorem ne_star_of_intercalate {lines : List String}
    (safe : ∀ l ∈ lines, ∀ c ∈ l.toList, IsSafe c = true) :
    ∀ c ∈ ("\n".intercalate lines).toList, c ≠ '*' := by
  have letters : ∀ l ∈ lines, ∀ c ∈ l.toList, c ≠ '*' := by
    rintro l hl c hc rfl
    have := safe l hl '*' hc
    simp [IsSafe] at this
  clear safe
  induction lines with
  | nil => simp
  | cons l more ih =>
    have here := letters l List.mem_cons_self
    have later := ih fun k hk => letters k (List.mem_cons_of_mem _ hk)
    cases more with
    | nil => rwa [String.intercalate_singleton]
    | cons m more =>
      intro c hc
      rw [String.intercalate_cons_cons, String.toList_append, String.toList_append,
        List.mem_append, List.mem_append] at hc
      rcases hc with (inLine | between) | after
      · exact here c inLine
      · have feed : c = '\n' := by simpa using between
        subst feed
        decide
      · exact later c after

theorem appendLines_toList {lines : List String} (filled : text.isEmpty = false) :
    (appendLines text lines).toList =
      text.toList ++ '\n' :: '\n' :: ("\n".intercalate lines).toList := by
  rw [appendLines, if_neg (by simp [filled]), String.toList_append, String.toList_append,
    List.append_assoc]
  rfl

/-- Appended lines end no comment, nor does the place where they are appended. -/
theorem not_endsComment_appendLines {lines : List String} (whole : ¬ EndsComment text.toList)
    (safe : ∀ l ∈ lines, ∀ c ∈ l.toList, IsSafe c = true) :
    ¬ EndsComment (appendLines text lines).toList := by
  have joined : ¬ EndsComment ("\n".intercalate lines).toList := fun ends =>
    ne_star_of_intercalate safe '*' (ends.subset (by simp)) rfl
  by_cases empty : text.isEmpty = true
  · rwa [appendLines, if_pos empty]
  · rw [appendLines_toList (by simpa using empty), endsComment_append, endsComment_cons,
      endsComment_cons]
    simpa [whole] using joined

/-- A text keeps its lines when others are appended, and these come last. -/
theorem linesOf_appendLines {lines : List String} (each : ∀ l ∈ lines, IsLine l) :
    ∃ between, linesOf (appendLines text lines) = linesOf text ++ between ++ lines := by
  by_cases empty : text.isEmpty = true
  · refine ⟨[], ?_⟩
    rw [appendLines, if_pos empty, String.isEmpty_iff.mp empty]
    exact linesFrom_intercalate each
  · obtain ⟨between, same⟩ := linesFrom_append [] text.toList ("\n".intercalate lines).toList
    refine ⟨between, ?_⟩
    rw [linesOf, appendLines_toList (by simpa using empty), same, linesFrom_intercalate each]
    rfl

end Rule
end LinkedSchema
