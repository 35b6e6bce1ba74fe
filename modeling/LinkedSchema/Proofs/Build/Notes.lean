import LinkedSchema.Build.Shapes
import LinkedSchema.Proofs.Naming.SafeString
import LinkedSchema.Proofs.Text.CommentEnd
/-! The notes that a build adds to comments. A note for a pattern never ends a comment, and one for
a definition does just if the key of the definition does. -/
namespace LinkedSchema

variable {cs xs ys zs : List Char} {name : Option String}

theorem not_endsComment_of_star (absent : '*' ∉ cs) : ¬ EndsComment cs :=
  fun ends => absent (ends.subset List.mem_cons_self)

/-- A text between one without stars and one that does not start with a slash. -/
theorem endsComment_between (before : '*' ∉ xs) (after : zs.head? ≠ some '/')
    (last : ¬ EndsComment zs) : EndsComment (xs ++ ys ++ zs) ↔ EndsComment ys := by
  have seam : xs.getLast? ≠ some '*' := fun star => before (List.mem_of_getLast? star)
  rw [endsComment_append, endsComment_append]
  simp [not_endsComment_of_star before, seam, after, last]

namespace Build

/-- A name that a build may have made, or none. -/
def IsOwner (name : Option String) : Prop :=
  ∀ text ∈ name, ∀ c ∈ text.toList, SafeString.isNameChar c = true

theorem star_not_mem_owner (made : IsOwner name) : '*' ∉ (owner name).toList := by
  unfold owner
  split
  · rename_i text
    split
    · decide
    · rw [String.toList_append, String.toList_append]
      have other : ¬ SafeString.isNameChar '*' = true := by decide
      have plain : '*' ∉ text.toList := fun star => other (made text rfl '*' star)
      simp [plain]
  · decide

/-- What a note says around a key, starless in front and closed by a quote, ends no comment. -/
theorem endsComment_quoted {opening : String} (starless : '*' ∉ opening.toList) (key : String) :
    EndsComment (opening ++ key ++ "\".").toList ↔ EndsComment key.toList := by
  rw [String.toList_append, String.toList_append]
  exact endsComment_between starless (by decide) (not_endsComment_of_star (by decide))

theorem star_not_mem_opening {before owner after : String} (first : '*' ∉ before.toList)
    (made : '*' ∉ owner.toList) (last : '*' ∉ after.toList) :
    '*' ∉ (before ++ owner ++ after).toList := by
  simp only [String.toList_append, List.mem_append, first, made, last, or_false, not_false_eq_true]

theorem not_endsComment_patternNote (made : IsOwner name) (pattern : String) :
    ¬ EndsComment (patternNote name pattern).toList := by
  refine mt (endsComment_quoted
    (star_not_mem_opening (by decide) (star_not_mem_owner made) (by decide)) _).mp ?_
  rw [String.toList_ofList]
  exact not_endsComment_split (by decide) (by decide) _

theorem endsComment_definitionNote (made : IsOwner name) (key : String) :
    EndsComment (definitionNote name key).toList ↔ EndsComment key.toList :=
  endsComment_quoted (star_not_mem_opening (by decide) (star_not_mem_owner made) (by decide)) key

end Build
end LinkedSchema
