import SqlTemplate.Dialect.Basic
import SqlTemplate.Lexeme
import SqlTemplate.Lexeme.Nesting
import SqlTemplate.Lexeme.Number
import SqlTemplate.Lexeme.Quoted
import SqlTemplate.Text.Search

/-!
# Placeholders

A placeholder is one expression between double braces: a quoted string, a
number, or names joined by dots.  A malformed placeholder is rejected together
with the text up to the braces that close it, so that reading can go on after
them.
-/

namespace SqlTemplate.Placeholder

def startsOpen (text : List Char) : Bool := Brackets.startsWith Brackets.placeholder.opener text

def startsClose (text : List Char) : Bool := Brackets.startsWith Brackets.placeholder.closer text

/-- Length of the names joined by dots at the head of a text. -/
def pathLength : List Char → Nat
  | [] => 0
  | c :: rest =>
    if Text.isWordChar c || (c == '.' && Text.startsWord rest) then pathLength rest + 1 else 0

/-- Length of the expression at the head of a text. -/
def expression (d : Dialect) (text : List Char) : Except Fault Nat :=
  match text with
  | [] => .error .missingExpression
  | c :: _ =>
    if c == '\'' || c == '"' then
      match Quoted.length? c (d.on .backslashEscapes) text with
      | some n => .ok n
      | none => .error .unterminatedString
    else if c.isDigit then .ok (Number.length text)
    else if Text.isWordStart c then .ok (pathLength text)
    else .error .missingExpression

/-- Rejects the text up to the first close after `start`.  Without a close all
of the text is rejected, as `unclosed`. -/
def recover (text : List Char) (start : Nat) (fault unclosed : Fault) : Match :=
  match Text.indexOf? ['}', '}'] (text.drop start) with
  | some n => .reject fault (start + n + 2)
  | none => .reject unclosed text.length

/-- Rejects a placeholder with another one inside, up to the close that
balances the outer opener. -/
def recoverNested (text : List Char) (start : Nat) : Match :=
  match Brackets.placeholder.close? 0 (text.drop start) with
  | some n => .reject .nestedPlaceholder (start + n)
  | none => .reject .nestedPlaceholder text.length

/-- The placeholder at the head of a text that starts with its opener. -/
def scan (d : Dialect) (text : List Char) : Match :=
  let start := 2 + Text.spaceRun (text.drop 2)
  if startsOpen (text.drop start) then recoverNested text start
  else
    match expression d (text.drop start) with
    | .error fault => recover text start fault fault
    | .ok n =>
      let stop := start + n + Text.spaceRun (text.drop (start + n))
      if startsClose (text.drop stop) then .accept .placeholder (stop + 2)
      else recover text stop .expectedPlaceholderClose .unterminatedPlaceholder

def match? (d : Dialect) : Recogniser := fun text =>
  if startsOpen text then some (scan d text) else none

/-- Closing braces that close nothing. -/
def unmatchedClose? : Recogniser := fun text =>
  if startsClose text then some (.reject .unmatchedPlaceholderClose 2) else none

theorem length_pos_of_startsOpen {text : List Char} (h : startsOpen text = true) :
    0 < text.length := by
  cases text with
  | nil => simp [startsOpen, Brackets.startsWith] at h
  | cons c rest => simp

theorem recover_pos {text : List Char} (hText : 0 < text.length) (start : Nat)
    (fault unclosed : Fault) : 0 < (recover text start fault unclosed).length := by
  unfold recover
  split <;> simp [hText]

theorem scan_pos {d : Dialect} {text : List Char} (hText : 0 < text.length) :
    0 < (scan d text).length := by
  simp only [scan]
  split
  · unfold recoverNested
    split
    · simp only [Match.reject_length]
      omega
    · simpa using hText
  · split
    · exact recover_pos hText _ _ _
    · split
      · simp
      · exact recover_pos hText _ _ _

theorem match?_progress (d : Dialect) : Recogniser.Progress (match? d) := by
  intro text m h
  simp only [match?, Option.ite_none_right_eq_some, Option.some.injEq] at h
  obtain ⟨hOpen, rfl⟩ := h
  exact scan_pos (length_pos_of_startsOpen hOpen)

theorem unmatchedClose?_progress : Recogniser.Progress unmatchedClose? := by
  intro text m h
  simp only [unmatchedClose?, Option.ite_none_right_eq_some, Option.some.injEq] at h
  obtain ⟨_, rfl⟩ := h
  simp

end SqlTemplate.Placeholder
