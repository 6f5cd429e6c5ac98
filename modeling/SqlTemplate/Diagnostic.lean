import SqlTemplate.Span

/-!
# Diagnostics

A fault is why a stretch of text is no lexeme; a diagnostic says where it
stands.
-/

namespace SqlTemplate

inductive Fault where
  | unterminatedString
  | unterminatedQuotedIdentifier
  | unterminatedDollarString
  | unterminatedBlockComment
  | malformedBits
  | malformedHex
  | missingExpression
  | nestedPlaceholder
  | expectedPlaceholderClose
  | unterminatedPlaceholder
  | unmatchedPlaceholderClose
  /-- Text other than whitespace and a placeholder in a quoted region. -/
  | unexpectedRegionText
  | secondPlaceholder
  | unterminatedRegion
  | strayDot
  | unexpectedCharacter
deriving DecidableEq, Repr

namespace Fault

def all : List Fault :=
  [unterminatedString, unterminatedQuotedIdentifier, unterminatedDollarString,
   unterminatedBlockComment, malformedBits, malformedHex, missingExpression, nestedPlaceholder,
   expectedPlaceholderClose, unterminatedPlaceholder, unmatchedPlaceholderClose,
   unexpectedRegionText, secondPlaceholder, unterminatedRegion, strayDot, unexpectedCharacter]

/-- The name under which the fault is written. -/
def name : Fault → String
  | unterminatedString => "unterminated_string"
  | unterminatedQuotedIdentifier => "unterminated_quoted_identifier"
  | unterminatedDollarString => "unterminated_dollar_string"
  | unterminatedBlockComment => "unterminated_block_comment"
  | malformedBits => "malformed_bit_literal"
  | malformedHex => "malformed_hex_literal"
  | missingExpression => "missing_resolvable_expression"
  | nestedPlaceholder => "nested_resolvable"
  | expectedPlaceholderClose => "expected_resolvable_close"
  | unterminatedPlaceholder => "unterminated_resolvable"
  | unmatchedPlaceholderClose => "unmatched_resolvable_close"
  | unexpectedRegionText => "unexpected_quoted_content"
  | secondPlaceholder => "multiple_resolvables"
  | unterminatedRegion => "unterminated_quoted_region"
  | strayDot => "stray_dot"
  | unexpectedCharacter => "unexpected_character"

def ofName? (s : String) : Option Fault := all.find? (·.name == s)

/-- The sentence that tells a reader what is wrong. -/
def message : Fault → String
  | unterminatedString => "unterminated string literal"
  | unterminatedQuotedIdentifier => "unterminated quoted identifier"
  | unterminatedDollarString => "unterminated dollar-quoted string"
  | unterminatedBlockComment => "unterminated block comment"
  | malformedBits => "bit literal may only contain 0 and 1"
  | malformedHex => "hex literal may only contain hexadecimal digits"
  | missingExpression => "placeholder is missing its expression"
  | nestedPlaceholder => "placeholders cannot be nested"
  | expectedPlaceholderClose => "expected `\x7d\x7d` to close the placeholder"
  | unterminatedPlaceholder => "unterminated placeholder"
  | unmatchedPlaceholderClose => "`\x7d\x7d` without a matching `\x7b\x7b`"
  | unexpectedRegionText =>
    "only whitespace and one placeholder may appear between these quotes"
  | secondPlaceholder => "a quoted region may contain only one placeholder"
  | unterminatedRegion => "quoted region around a placeholder is never closed"
  | strayDot => "`.` must join two identifier parts"
  | unexpectedCharacter => "unexpected character"

end Fault

structure Diagnostic where
  fault : Fault
  span : Span
deriving DecidableEq, Repr

namespace Diagnostic

/-- The fault's sentence and the place of its first character. -/
def message (e : Diagnostic) : String :=
  s!"{e.fault.message} at line {e.span.line}, column {e.span.column}"

/-- Puts a diagnostic in front of the first one that does not start before it. -/
def insertByStart (e : Diagnostic) : List Diagnostic → List Diagnostic
  | [] => [e]
  | f :: rest =>
    if e.span.start ≤ f.span.start then e :: f :: rest else f :: insertByStart e rest

/-- The diagnostics by where they start; those that start in one place keep
their order. -/
def sortByStart (es : List Diagnostic) : List Diagnostic := es.foldr insertByStart []

end Diagnostic

end SqlTemplate
