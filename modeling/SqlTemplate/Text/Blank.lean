import SqlTemplate.Text.Ranges

/-!
# Blanks and whitespace

A blank is a character with the Unicode property White_Space; word lists and
names are cut and trimmed at blanks.  Whitespace in SQL text also takes in the
byte order mark.
-/

namespace SqlTemplate.Text

def blankRanges : Ranges :=
  [(0x9, 0xD), (0x20, 0x20), (0x85, 0x85), (0xA0, 0xA0), (0x1680, 0x1680), (0x2000, 0x200A),
   (0x2028, 0x2029), (0x202F, 0x202F), (0x205F, 0x205F), (0x3000, 0x3000)]

def isBlank (c : Char) : Bool := blankRanges.covers c.toNat

/-- Whitespace between lexemes: a blank or the byte order mark. -/
def isSpace (c : Char) : Bool := isBlank c || c == '\uFEFF'

/-- Number of whitespace characters at the head of a text. -/
def spaceRun (text : List Char) : Nat := (text.takeWhile isSpace).length

theorem spaceRun_pos {c : Char} {rest : List Char} (h : isSpace c = true) :
    0 < spaceRun (c :: rest) := by
  simp [spaceRun, h]

end SqlTemplate.Text
