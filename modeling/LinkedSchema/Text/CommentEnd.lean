/-! Block comments end at a star and a slash. -/
namespace LinkedSchema

/-- Puts a character between star and slash wherever the two would end a block comment. -/
def splitCommentEnds (between : Char) : List Char → List Char
  | '*' :: '/' :: rest => '*' :: between :: '/' :: splitCommentEnds between rest
  | c :: rest => c :: splitCommentEnds between rest
  | [] => []

end LinkedSchema
