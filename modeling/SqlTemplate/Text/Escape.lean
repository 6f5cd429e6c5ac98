import SqlTemplate.Text.Unprintable

/-!
# Escaped text in messages

`quoted` writes a text between double quotes and `escapeChar` writes a single
character, both so that every character can be told from the message.
-/

namespace SqlTemplate.Text

/-- A character by its code point: `\u`, then lower-case hexadecimal digits in braces. -/
def escapeCode (c : Char) : String :=
  "\\u\x7b" ++ String.ofList (Nat.toDigits 16 c.toNat) ++ "\x7d"

/-- One character of a quoted text.  Apostrophes stand for themselves. -/
def quotedChar (c : Char) : String :=
  if c = '\x00' then "\\0"
  else if c = '\t' then "\\t"
  else if c = '\r' then "\\r"
  else if c = '\n' then "\\n"
  else if c = '"' then "\\\""
  else if c = '\\' then "\\\\"
  else if isUnprintable c then escapeCode c
  else c.toString

/-- A text between double quotes. -/
def quoted (text : List Char) : String :=
  "\"" ++ String.join (text.map quotedChar) ++ "\""

/-- A single character in a message: printable ASCII stands for itself, except
quotes and the backslash. -/
def escapeChar (c : Char) : String :=
  if c = '\t' then "\\t"
  else if c = '\r' then "\\r"
  else if c = '\n' then "\\n"
  else if c = '\'' then "\\'"
  else if c = '"' then "\\\""
  else if c = '\\' then "\\\\"
  else if 0x20 ≤ c.toNat ∧ c.toNat ≤ 0x7E then c.toString
  else escapeCode c

end SqlTemplate.Text
