import SqlTemplate.Lexeme.Literal
import SqlTemplate.Lexeme.Region

/-!
# Lexemes outside quoted regions

`Lexeme.next` tries the forms of lexemes in a fixed order.
-/

namespace SqlTemplate

namespace Lexeme

/-- The forms of lexemes outside quoted regions, in the order in which they are
tried; `before` is the kind of the token before. -/
def forms (d : Dialect) (before : Option TokenKind) : List Recogniser :=
  [Symbol.whitespace?,
   Placeholder.match? d,
   Placeholder.unmatchedClose?,
   Region.apostrophe? d,
   Literal.match? d,
   Comment.line? d,
   Comment.block?,
   Symbol.string? d,
   Symbol.quotedIdentifier? d,
   Symbol.number? before,
   Symbol.specialVariable? d,
   Symbol.punctuation?,
   Symbol.operator? d,
   Symbol.word? d before]

/-- The lexeme at the head of a text.  A character that starts no lexeme is
rejected by itself. -/
def next (d : Dialect) (before : Option TokenKind) (text : List Char) : Match :=
  (Recogniser.firstOf (forms d before) text).getD (.reject .unexpectedCharacter 1)

theorem forms_progress (d : Dialect) (before : Option TokenKind) :
    ∀ r ∈ forms d before, Recogniser.Progress r := by
  simp only [forms, List.forall_mem_cons, List.not_mem_nil, false_imp_iff, implies_true, and_true]
  exact ⟨Symbol.whitespace?_progress, Placeholder.match?_progress d,
    Placeholder.unmatchedClose?_progress, Region.apostrophe?_progress d,
    Literal.match?_progress d, Comment.line?_progress d, Comment.block?_progress,
    Symbol.string?_progress d, Symbol.quotedIdentifier?_progress d,
    Symbol.number?_progress before, Symbol.specialVariable?_progress d,
    Symbol.punctuation?_progress, Symbol.operator?_progress d, Symbol.word?_progress d before⟩

theorem next_pos (d : Dialect) (before : Option TokenKind) (text : List Char) :
    0 < (next d before text).length := by
  unfold next
  cases h : Recogniser.firstOf (forms d before) text with
  | none => exact Nat.one_pos
  | some m => exact Recogniser.firstOf_progress (forms_progress d before) _ _ h

end Lexeme

end SqlTemplate
