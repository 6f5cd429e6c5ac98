import SqlTemplate.Dialect.Basic
import SqlTemplate.Lexeme
import SqlTemplate.Lexeme.Nesting

/-!
# Comments

A line comment runs to the end of the line and leaves the line break.  Block
comments nest.
-/

namespace SqlTemplate.Comment

/-- Whether the text is empty or starts with whitespace. -/
def startsSpace : List Char → Bool
  | [] => true
  | c :: _ => Text.isSpace c

/-- Whether a line comment of the dialect starts here. -/
def startsLine (d : Dialect) : List Char → Bool
  | '-' :: '-' :: rest => !d.on .spaceAfterDashes || startsSpace rest
  | '#' :: _ => d.on .hashComments
  | '/' :: '/' :: _ => d.on .slashComments
  | _ => false

/-- Whether a block comment starts here. -/
def startsBlock (text : List Char) : Bool := Brackets.startsWith Brackets.comment.opener text

def line? (d : Dialect) : Recogniser := fun text =>
  if startsLine d text then some (.accept .lineComment (text.takeWhile (· != '\n')).length)
  else none

/-- A block comment, or all of the text if the comment is never closed. -/
def block? : Recogniser := fun text =>
  if startsBlock text then
    match Brackets.comment.close? 0 (text.drop 2) with
    | some n => some (.accept .blockComment (n + 2))
    | none => some (.reject .unterminatedBlockComment text.length)
  else none

theorem line?_progress (d : Dialect) : Recogniser.Progress (line? d) := by
  intro text m h
  simp only [line?, Option.ite_none_right_eq_some, Option.some.injEq] at h
  obtain ⟨hStart, rfl⟩ := h
  unfold startsLine at hStart
  split at hStart <;> simp_all

theorem block?_progress : Recogniser.Progress block? := by
  intro text m h
  simp only [block?, Option.ite_none_right_eq_some] at h
  obtain ⟨hStart, h⟩ := h
  split at h
  · simp only [Option.some.injEq] at h
    subst h
    simp
  · simp only [Option.some.injEq] at h
    subst h
    cases text with
    | nil => simp [startsBlock, Brackets.startsWith] at hStart
    | cons c rest => simp

end SqlTemplate.Comment
