import SqlTemplate.Span

/-!
# Tokens

A token is a kind and a span.  The kinds that can be a part of a dotted name
are those for which `TokenKind.isNamePart` holds.
-/

namespace SqlTemplate

inductive TokenKind where
  | keyword
  /-- The name of a built-in type, such as `INTEGER`. -/
  | typeName
  | identifier
  /-- An identifier between quotes of the dialect. -/
  | quotedIdentifier
  /-- Binary digits: `b'0101'` or `0b0101`. -/
  | bits
  /-- A byte string: `b'...'` where the dialect reads it so. -/
  | bytes
  | string
  | number
  /-- Two opening braces, an expression and two closing braces. -/
  | placeholder
  /-- A quote that opens or closes a quoted region around a placeholder. -/
  | regionQuote
  | operator
  /-- A variable with a sigil: `?`, `@name`, `@@name`, `$1`. -/
  | specialVariable
  | dot
  | semicolon
  | comma
  | paren
  | bracket
  | brace
  | whitespace
  | lineComment
  | blockComment
  /-- Text that is no lexeme; a diagnostic says why. -/
  | error
deriving DecidableEq, Repr

namespace TokenKind

def all : List TokenKind :=
  [keyword, typeName, identifier, quotedIdentifier, bits, bytes, string, number, placeholder,
   regionQuote, operator, specialVariable, dot, semicolon, comma, paren, bracket, brace,
   whitespace, lineComment, blockComment, error]

/-- The name under which the kind is written. -/
def name : TokenKind → String
  | keyword => "Keyword"
  | typeName => "Type"
  | identifier => "Identifier"
  | quotedIdentifier => "QuotedIdentifier"
  | bits => "Bits"
  | bytes => "Bytes"
  | string => "String"
  | number => "Number"
  | placeholder => "Resolvable"
  | regionQuote => "OrphanSingleQuote"
  | operator => "Operator"
  | specialVariable => "SpecialVar"
  | dot => "Dot"
  | semicolon => "Semicolon"
  | comma => "Punctuation"
  | paren => "Paren"
  | bracket => "Bracket"
  | brace => "Brace"
  | whitespace => "Whitespace"
  | lineComment => "LineComment"
  | blockComment => "BlockComment"
  | error => "Error"

def ofName? (s : String) : Option TokenKind := all.find? (·.name == s)

/-- Whether a token of this kind can be a part of a dotted name. -/
def isNamePart : TokenKind → Bool
  | identifier | quotedIdentifier | placeholder => true
  | _ => false

/-- Whitespace and comments. -/
def isTrivia : TokenKind → Bool
  | whitespace | lineComment | blockComment => true
  | _ => false

end TokenKind

structure Token where
  kind : TokenKind
  span : Span
deriving DecidableEq, Repr

namespace Token

/-- The text of the token in the source it was scanned from. -/
def text (source : List Char) (t : Token) : List Char :=
  Text.slice t.span.start t.span.stop source

/-- The kind and the two offsets: `Keyword@0..6`. -/
def describe (t : Token) : String :=
  s!"{t.kind.name}@{t.span.start}..{t.span.stop}"

end Token

end SqlTemplate
