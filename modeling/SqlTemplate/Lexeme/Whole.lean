import SqlTemplate.Lexeme.Literal

/-!
# The kind of a whole text
-/

namespace SqlTemplate

/-- The kind of a text that is one literal, one word or one number; every other
text is an error. -/
def Dialect.kindOf (d : Dialect) (text : List Char) : TokenKind :=
  match Literal.match? d text with
  | some m => if m.length = text.length then m.kind else .error
  | none =>
    if Text.isWord text then d.wordKind text
    else if Number.startsDigit text && Number.length text == text.length then .number
    else .error

end SqlTemplate
