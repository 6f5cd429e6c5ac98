import SqlTemplate.Text.Word
import SqlTemplate.Token

/-!
# Dialects

A dialect is what the scanner has to know about one kind of SQL: its tables of
keywords and type names, which of the nine switches are on, and three sets of
characters.
-/

namespace SqlTemplate

/-- A rule of reading that a dialect follows or not. -/
inductive Switch where
  /-- A literal `b'...'` holds bytes rather than binary digits. -/
  | bitsAsBytes
  /-- The form `b"..."` is a literal like `b'...'`. -/
  | doubleQuotedBits
  /-- The forms `$$...$$` and `$tag$...$tag$` are strings. -/
  | dollarQuotes
  /-- A backslash in a string escapes the next character. -/
  | backslashEscapes
  /-- A line comment can start with `#`. -/
  | hashComments
  /-- A line comment can start with `//`. -/
  | slashComments
  /-- Two dashes start a line comment only before whitespace. -/
  | spaceAfterDashes
  /-- Strings can stand between double quotes. -/
  | doubleQuotedStrings
  /-- The forms `N'...'` and `_charset'...'` are strings. -/
  | charsetStrings
deriving DecidableEq, Repr

def Switch.all : List Switch :=
  [.bitsAsBytes, .doubleQuotedBits, .dollarQuotes, .backslashEscapes, .hashComments,
   .slashComments, .spaceAfterDashes, .doubleQuotedStrings, .charsetStrings]

structure Dialect where
  /-- Words in upper case. -/
  keywords : List Word
  /-- Words in upper case. -/
  typeNames : List Word
  /-- Which switches are on. -/
  on : Switch → Bool
  identifierQuotes : List Char
  /-- The characters that form operators. -/
  operatorChars : List Char
  /-- The characters that start special variables. -/
  variableChars : List Char

namespace Dialect

def isKeyword (d : Dialect) (w : Word) : Bool := d.keywords.contains (Text.upper w)

def isTypeName (d : Dialect) (w : Word) : Bool := d.typeNames.contains (Text.upper w)

def isIdentifierQuote (d : Dialect) (c : Char) : Bool := d.identifierQuotes.contains c

def isOperatorChar (d : Dialect) (c : Char) : Bool := d.operatorChars.contains c

def isVariableChar (d : Dialect) (c : Char) : Bool := d.variableChars.contains c

/-- The kind of a word that stands by itself.  The keyword table comes first. -/
def wordKind (d : Dialect) (w : Word) : TokenKind :=
  if d.isKeyword w then .keyword else if d.isTypeName w then .typeName else .identifier

end Dialect

end SqlTemplate
