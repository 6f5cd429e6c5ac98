import SqlTemplate.Decimal.Double
import SqlTemplate.Decimal.Shortest
import SqlTemplate.Diagnostic
import SqlTemplate.Dialect.Basic
import SqlTemplate.Dialect.Draft
import SqlTemplate.Dialect.Error
import SqlTemplate.Dialect.Overrides
import SqlTemplate.Dialect.Preset
import SqlTemplate.Dialect.Registry
import SqlTemplate.Dialect.Validity
import SqlTemplate.Dialect.Vocabulary
import SqlTemplate.DottedName
import SqlTemplate.Json.Numeral
import SqlTemplate.Json.Overrides
import SqlTemplate.Json.Record
import SqlTemplate.Json.Stream
import SqlTemplate.Json.Symbol
import SqlTemplate.Json.Value
import SqlTemplate.Lexeme
import SqlTemplate.Lexeme.Comment
import SqlTemplate.Lexeme.Literal
import SqlTemplate.Lexeme.Nesting
import SqlTemplate.Lexeme.Number
import SqlTemplate.Lexeme.Placeholder
import SqlTemplate.Lexeme.Quoted
import SqlTemplate.Lexeme.Region
import SqlTemplate.Lexeme.Scan
import SqlTemplate.Lexeme.Symbol
import SqlTemplate.Lexeme.Whole
import SqlTemplate.Proofs.Appending
import SqlTemplate.Proofs.BitsAndBytes
import SqlTemplate.Proofs.CharRoles
import SqlTemplate.Proofs.Classification
import SqlTemplate.Proofs.Coverage
import SqlTemplate.Proofs.Diagnosis
import SqlTemplate.Proofs.DollarQuotes
import SqlTemplate.Proofs.Dots
import SqlTemplate.Proofs.DottedNames
import SqlTemplate.Proofs.DottedRuns
import SqlTemplate.Proofs.Exchange
import SqlTemplate.Proofs.Extent
import SqlTemplate.Proofs.FaultTexts
import SqlTemplate.Proofs.JsonText
import SqlTemplate.Proofs.LetterCase
import SqlTemplate.Proofs.Lexemes
import SqlTemplate.Proofs.LiteralBytes
import SqlTemplate.Proofs.Locality
import SqlTemplate.Proofs.MaximalMunch
import SqlTemplate.Proofs.NestedComments
import SqlTemplate.Proofs.NumberDots
import SqlTemplate.Proofs.Overlays
import SqlTemplate.Proofs.OverridesMembers
import SqlTemplate.Proofs.OverridesText
import SqlTemplate.Proofs.PlaceholderGrammar
import SqlTemplate.Proofs.Placeholders
import SqlTemplate.Proofs.Placement
import SqlTemplate.Proofs.Positions
import SqlTemplate.Proofs.Presets
import SqlTemplate.Proofs.Provenance
import SqlTemplate.Proofs.Quotation
import SqlTemplate.Proofs.QuotePlans
import SqlTemplate.Proofs.QuotedRuns
import SqlTemplate.Proofs.Reading
import SqlTemplate.Proofs.Recognition
import SqlTemplate.Proofs.Recording
import SqlTemplate.Proofs.Recovery
import SqlTemplate.Proofs.RegionBody
import SqlTemplate.Proofs.Regions
import SqlTemplate.Proofs.Registration
import SqlTemplate.Proofs.Run
import SqlTemplate.Proofs.Sealing
import SqlTemplate.Proofs.SelfDelimiting
import SqlTemplate.Proofs.Stability
import SqlTemplate.Proofs.Statements
import SqlTemplate.Proofs.StreamText
import SqlTemplate.Proofs.Substitution
import SqlTemplate.Proofs.TableEntries
import SqlTemplate.Proofs.Triggers
import SqlTemplate.Proofs.UpperCase
import SqlTemplate.Proofs.Utf8
import SqlTemplate.Proofs.Words
import SqlTemplate.Scanner
import SqlTemplate.Span
import SqlTemplate.Text.Alphabetic
import SqlTemplate.Text.Blank
import SqlTemplate.Text.Bytes
import SqlTemplate.Text.Escape
import SqlTemplate.Text.Numeric
import SqlTemplate.Text.Ranges
import SqlTemplate.Text.Search
import SqlTemplate.Text.Unprintable
import SqlTemplate.Text.Uppercase
import SqlTemplate.Text.Word
import SqlTemplate.Token
import SqlTemplate.TokenStream
