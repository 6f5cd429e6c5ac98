/-!
# Searching a text
-/

namespace SqlTemplate.Text

/-- Number of characters before the first occurrence of a pattern. -/
def indexOf? (pattern : List Char) : List Char → Option Nat
  | [] => if pattern.isEmpty then some 0 else none
  | c :: rest =>
    if pattern.isPrefixOf (c :: rest) then some 0 else (indexOf? pattern rest).map (· + 1)

end SqlTemplate.Text
