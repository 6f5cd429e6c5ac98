import SqlTemplate.Dialect.Preset
import SqlTemplate.DottedName
import SqlTemplate.Json.Record
import SqlTemplate.TokenStream

/-!
# Token streams in JSON

The written form of spans, tokens, diagnostics, token streams and dotted names,
and how they are read back.
-/

namespace SqlTemplate

open Json (Value)

/-! ### Constructors without arguments -/

def TokenKind.toJson (k : TokenKind) : Value := .text k.name

def TokenKind.ofJson? (v : Value) : Option TokenKind := v.constructor?.bind ofName?

def Fault.toJson (f : Fault) : Value := .text f.name

def Fault.ofJson? (v : Value) : Option Fault := v.constructor?.bind ofName?

def Preset.toJson (p : Preset) : Value := .text p.name

def Preset.ofJson? (v : Value) : Option Preset := v.constructor?.bind ofExactName?

/-! ### Records -/

namespace Span

def toJson (s : Span) : Value :=
  .object [("start", .ofNat s.start), ("end", .ofNat s.stop), ("line", .ofNat s.line),
    ("column", .ofNat s.column)]

def ofJson? (v : Value) : Option Span := do
  match ← v.fields? ["start", "end", "line", "column"] with
  | [start, stop, line, column] =>
    return ⟨← start.toNat?, ← stop.toNat?, ← line.toNat?, ← column.toNat?⟩
  | _ => none

end Span

namespace Token

def toJson (t : Token) : Value := .object [("kind", t.kind.toJson), ("span", t.span.toJson)]

def ofJson? (v : Value) : Option Token := do
  match ← v.fields? ["kind", "span"] with
  | [kind, span] => return ⟨← TokenKind.ofJson? kind, ← Span.ofJson? span⟩
  | _ => none

end Token

namespace Diagnostic

def toJson (e : Diagnostic) : Value := .object [("kind", e.fault.toJson), ("span", e.span.toJson)]

def ofJson? (v : Value) : Option Diagnostic := do
  match ← v.fields? ["kind", "span"] with
  | [kind, span] => return ⟨← Fault.ofJson? kind, ← Span.ofJson? span⟩
  | _ => none

end Diagnostic

namespace TokenStream

def toJson (s : TokenStream) : Value :=
  .object [("tokens", .array (s.tokens.map Token.toJson)),
    ("errors", .array (s.diagnostics.map Diagnostic.toJson))]

def ofJson? (v : Value) : Option TokenStream := do
  match ← v.fields? ["tokens", "errors"] with
  | [tokens, errors] =>
    return ⟨← (← tokens.items?).mapM Token.ofJson?, ← (← errors.items?).mapM Diagnostic.ofJson?⟩
  | _ => none

end TokenStream

namespace IndexRange

def toJson (r : IndexRange) : Value :=
  .object [("start", .ofNat r.start), ("end", .ofNat r.stop)]

/-- A range has no members but its own. -/
def ofJson? (v : Value) : Option IndexRange := do
  match ← v.fields? ["start", "end"] with
  | [start, stop] =>
    if v.hasOnly ["start", "end"] then return ⟨← start.toNat?, ← stop.toNat?⟩ else none
  | _ => none

end IndexRange

namespace DottedName

def toJson (n : DottedName) : Value :=
  .object [("tokens", n.tokens.toJson), ("span", n.span.toJson)]

def ofJson? (v : Value) : Option DottedName := do
  match ← v.fields? ["tokens", "span"] with
  | [tokens, span] => return ⟨← IndexRange.ofJson? tokens, ← Span.ofJson? span⟩
  | _ => none

end DottedName

end SqlTemplate
