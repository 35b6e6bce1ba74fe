import LinkedSchema.Text.CommentEnd
import Mathlib.Data.List.Infix
/-! Texts that do not end a block comment. -/
namespace LinkedSchema

variable {between c : Char} {cs xs ys : List Char}

/-- Whether a star and a slash stand next to each other. -/
def EndsComment (cs : List Char) : Prop := ['*', '/'] <:+: cs

instance (cs : List Char) : Decidable (EndsComment cs) :=
  inferInstanceAs (Decidable (['*', '/'] <:+: cs))

theorem endsComment_cons : EndsComment (c :: cs) ↔
    (c = '*' ∧ cs.head? = some '/') ∨ EndsComment cs := by
  unfold EndsComment
  rw [List.infix_cons_iff]
  cases cs with
  | nil => simp
  | cons d rest => simp [List.cons_prefix_cons, eq_comm]

theorem not_endsComment_nil : ¬ EndsComment [] := by
  simp [EndsComment]

/-- Between two texts an end can arise only where the first one has a star last. -/
theorem endsComment_append : EndsComment (xs ++ ys) ↔
    EndsComment xs ∨ EndsComment ys ∨ (xs.getLast? = some '*' ∧ ys.head? = some '/') := by
  induction xs with
  | nil => simp [not_endsComment_nil]
  | cons x rest ih =>
    rw [List.cons_append, endsComment_cons, endsComment_cons, ih]
    cases rest with
    | nil => simp [not_endsComment_nil]; tauto
    | cons y rest => simp; tauto

theorem splitCommentEnds_head : (splitCommentEnds between cs).head? = cs.head? := by
  fun_cases splitCommentEnds between cs <;> rfl

theorem not_endsComment_split (slash : between ≠ '/') (star : between ≠ '*') (cs : List Char) :
    ¬ EndsComment (splitCommentEnds between cs) := by
  fun_induction splitCommentEnds between cs with
  | case1 rest ih =>
    simp only [endsComment_cons]
    simp [slash, star, ih]
  | case2 c rest apart ih =>
    rw [endsComment_cons, splitCommentEnds_head]
    rintro (⟨rfl, head⟩ | later)
    · cases rest with
      | nil => cases head
      | cons d rest =>
        cases head
        exact apart rest rfl rfl
    · exact ih later
  | case3 => exact not_endsComment_nil

theorem splitCommentEnds_eq_self (whole : ¬ EndsComment cs) : splitCommentEnds between cs = cs := by
  fun_induction splitCommentEnds between cs with
  | case1 rest => exact absurd (endsComment_cons.mpr (.inl ⟨rfl, rfl⟩)) whole
  | case2 c rest _ ih => rw [ih fun later => whole (endsComment_cons.mpr (.inr later))]
  | case3 => rfl

end LinkedSchema
