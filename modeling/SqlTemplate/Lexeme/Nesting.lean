/-!
# Nested pairs

Two-character openers and closers that nest, such as the marks of block
comments.  `close?` finds the closer that brings the depth back to nothing.
-/

namespace SqlTemplate

/-- The marks of a nesting construct, each of two characters. -/
structure Brackets where
  opener : Char × Char
  closer : Char × Char

namespace Brackets

def startsWith (mark : Char × Char) : List Char → Bool
  | c :: d :: _ => c == mark.1 && d == mark.2
  | _ => false

/-- Number of characters up to the closer that balances the text and with it,
read from inside `depth + 1` openers. -/
def close? (b : Brackets) (depth : Nat) : List Char → Option Nat
  | c :: d :: rest =>
    if (c, d) = b.opener then (b.close? (depth + 1) rest).map (· + 2)
    else if (c, d) = b.closer then
      match depth with
      | 0 => some 2
      | outer + 1 => (b.close? outer rest).map (· + 2)
    else (b.close? depth (d :: rest)).map (· + 1)
  | _ => none

/-- The marks of block comments. -/
def comment : Brackets := ⟨('/', '*'), ('*', '/')⟩

/-- The marks of placeholders. -/
def placeholder : Brackets := ⟨('{', '{'), ('}', '}')⟩

end Brackets

end SqlTemplate
