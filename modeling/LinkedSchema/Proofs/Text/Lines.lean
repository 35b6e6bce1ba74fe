import LinkedSchema.Text.Lines
import Mathlib.Data.List.Basic
/-! The lines of a text that grows at its end. -/
namespace LinkedSchema

variable {line cs rest : List Char}

theorem isLineEnd_newline : isLineEnd '\n' = true := by decide

theorem linesFrom_newline :
    linesFrom line ('\n' :: rest) = .ofList line.reverse :: linesFrom [] rest := by
  rw [linesFrom, if_pos isLineEnd_newline]
  · nofun

/-- A text keeps its lines when a blank line and more text follow, and the lines of that text come
after them. -/
theorem linesFrom_append (line cs rest : List Char) :
    ∃ between, linesFrom line (cs ++ '\n' :: '\n' :: rest) =
      linesFrom line cs ++ between ++ linesFrom [] rest := by
  fun_induction linesFrom line cs with
  | case1 =>
    refine ⟨[.ofList [], .ofList []], ?_⟩
    rw [List.nil_append, linesFrom_newline, linesFrom_newline]
    rfl
  | case2 line =>
    refine ⟨[.ofList []], ?_⟩
    rw [List.nil_append, linesFrom_newline, linesFrom_newline]
    rfl
  | case3 line cs ih =>
    obtain ⟨between, same⟩ := ih
    refine ⟨between, ?_⟩
    simp only [List.cons_append, linesFrom, same]
  | case4 line c cs apart ends ih =>
    by_cases pair : c = '\r' ∧ cs = []
    · -- The carriage return and the first line feed make one line end.
      obtain ⟨rfl, rfl⟩ := pair
      refine ⟨[.ofList []], ?_⟩
      simp only [List.cons_append, List.nil_append, linesFrom, linesFrom_newline]
      rfl
    · obtain ⟨between, same⟩ := ih
      refine ⟨between, ?_⟩
      rw [List.cons_append, linesFrom, if_pos ends, same]
      · rfl
      · rintro more rfl tail
        cases cs with
        | nil => exact pair ⟨rfl, rfl⟩
        | cons d cs =>
          cases tail
          exact apart cs rfl rfl
  | case5 line c cs apart inside ih =>
    obtain ⟨between, same⟩ := ih
    refine ⟨between, ?_⟩
    rw [List.cons_append, linesFrom, if_neg inside, same]
    rintro more rfl
    exact absurd (by decide) inside

/-- A line is written without line ends, and is not empty. -/
def IsLine (text : String) : Prop := text.toList ≠ [] ∧ ∀ c ∈ text.toList, isLineEnd c = false

theorem linesFrom_inside (inside : ∀ c ∈ cs, isLineEnd c = false) (line rest : List Char) :
    linesFrom line (cs ++ rest) = linesFrom (cs.reverse ++ line) rest := by
  induction cs generalizing line with
  | nil => rfl
  | cons c cs ih =>
    have here := inside c List.mem_cons_self
    rw [List.cons_append, linesFrom, if_neg (by simp [here]), ih fun d hd =>
      inside d (List.mem_cons_of_mem _ hd)]
    · simp
    · rintro more rfl
      exact absurd here (by decide)

theorem linesFrom_end (filled : line ≠ []) : linesFrom line [] = [.ofList line.reverse] := by
  cases line with
  | nil => exact absurd rfl filled
  | cons c line => rfl

/-- Lines that are joined by line feeds are read back. -/
theorem linesFrom_intercalate {lines : List String} (each : ∀ l ∈ lines, IsLine l) :
    linesFrom [] ("\n".intercalate lines).toList = lines := by
  induction lines with
  | nil => rfl
  | cons l more ih =>
    obtain ⟨filled, inside⟩ := each l List.mem_cons_self
    cases more with
    | nil =>
      rw [String.intercalate_singleton, ← List.append_nil l.toList, linesFrom_inside inside,
        List.append_nil, linesFrom_end (by simpa using filled), List.reverse_reverse,
        String.ofList_toList]
    | cons m more =>
      have rest := ih fun k hk => each k (List.mem_cons_of_mem _ hk)
      rw [String.intercalate_cons_cons, String.toList_append, String.toList_append,
        List.append_assoc, linesFrom_inside inside]
      show linesFrom _ ('\n' :: ("\n".intercalate (m :: more)).toList) = _
      rw [linesFrom_newline, rest, List.append_nil, List.reverse_reverse, String.ofList_toList]

end LinkedSchema
