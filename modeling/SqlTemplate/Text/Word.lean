import SqlTemplate.Text.Alphabetic
import SqlTemplate.Text.Blank
import SqlTemplate.Text.Numeric
import SqlTemplate.Text.Uppercase

/-!
# Words

A word is a letter or an underscore followed by letters, numbers and
underscores.  Word tables are written as texts with blanks between the words
and hold the words in upper case, each one once.
-/

namespace SqlTemplate

/-- A word or a candidate for one; `Text.isWord` tells. -/
abbrev Word := List Char

namespace Text

def isAlphanumeric (c : Char) : Bool := isAlphabetic c || isNumeric c

def isWordStart (c : Char) : Bool := isAlphabetic c || c == '_'

def isWordChar (c : Char) : Bool := isAlphanumeric c || c == '_'

theorem isWordChar_of_isWordStart {c : Char} (h : isWordStart c = true) : isWordChar c = true := by
  simp only [isWordStart, Bool.or_eq_true] at h
  simp only [isWordChar, isAlphanumeric, Bool.or_eq_true]
  rcases h with h | h
  · exact Or.inl (Or.inl h)
  · exact Or.inr h

/-- Number of word characters at the head of a text. -/
def wordRun (text : List Char) : Nat := (text.takeWhile isWordChar).length

theorem wordRun_pos {c : Char} {rest : List Char} (h : isWordChar c = true) :
    0 < wordRun (c :: rest) := by
  simp [wordRun, h]

def startsWord : List Char → Bool
  | [] => false
  | c :: _ => isWordStart c

def isWord : Word → Bool
  | [] => false
  | c :: rest => isWordStart c && rest.all isWordChar

/-- One more character in front of a text already cut at its blanks; the first
component is the piece at the head, to which the next character may belong. -/
def splitStep (c : Char) (cut : List Char × List Word) : List Char × List Word :=
  if isBlank c then ([], if cut.1.isEmpty then cut.2 else cut.1 :: cut.2)
  else (c :: cut.1, cut.2)

/-- The pieces of a text between its blanks, empty ones left out. -/
def splitBlanks (text : List Char) : List Word :=
  let cut := text.foldr splitStep ([], [])
  if cut.1.isEmpty then cut.2 else cut.1 :: cut.2

/-- The word table that a blank-separated text describes. -/
def wordTable (text : List Char) : List Word := ((splitBlanks text).map upper).eraseDups

end Text

end SqlTemplate
