import SqlTemplate.Scanner

/-!
# Token streams

What scanning a source text gives: its tokens, and the diagnostics that explain
the error tokens among them.
-/

namespace SqlTemplate

structure TokenStream where
  tokens : List Token
  /-- In the order of the tokens they explain. -/
  diagnostics : List Diagnostic
deriving DecidableEq, Repr

namespace TokenStream

def hasErrors (s : TokenStream) : Bool := !s.diagnostics.isEmpty

def kinds (s : TokenStream) : List TokenKind := s.tokens.map (·.kind)

end TokenStream

/-- The stream of what a scanner has recorded. -/
def Scanner.stream (s : Scanner) : TokenStream :=
  ⟨s.tokens.toList, Diagnostic.sortByStart s.diagnostics.toList⟩

namespace Dialect

/-- Scans a source text. -/
def scan (d : Dialect) (source : List Char) : TokenStream := (Scanner.ofText d source).stream

def tokenize (d : Dialect) (source : List Char) : List Token := (d.scan source).tokens

end Dialect

end SqlTemplate
