import SqlTemplate.Lexeme.Comment
import SqlTemplate.Lexeme.Number
import SqlTemplate.Lexeme.Quoted

/-!
# Plain lexemes

Whitespace, quoted identifiers, numbers, special variables, punctuation,
operators and words.  Some of them depend on the token before: a dot before a
digit starts a number unless a name comes before it, and a word beside a dot is
part of a name whatever the word tables say.
-/

namespace SqlTemplate.Symbol

def whitespace? : Recogniser
  | [] => none
  | c :: rest =>
    if Text.isSpace c then some (.accept .whitespace (Text.spaceRun (c :: rest))) else none

/-- A quoted run, or all of the text if the run is never closed. -/
def delimited (quote : Char) (escapes : Bool) (kind : TokenKind) (unclosed : Fault)
    (text : List Char) : Match :=
  match Quoted.length? quote escapes text with
  | some n => .accept kind n
  | none => .reject unclosed text.length

/-- A string between double quotes. -/
def string? (d : Dialect) : Recogniser
  | [] => none
  | c :: rest =>
    if c == '"' && d.on .doubleQuotedStrings then
      some (delimited c (d.on .backslashEscapes) .string .unterminatedString (c :: rest))
    else none

def quotedIdentifier? (d : Dialect) : Recogniser
  | [] => none
  | c :: rest =>
    if d.isIdentifierQuote c then
      some (delimited c false .quotedIdentifier .unterminatedQuotedIdentifier (c :: rest))
    else none

/-- A number, where `before` is the kind of the token before it. -/
def number? (before : Option TokenKind) : Recogniser := fun text =>
  if Number.startsDigit text || (Number.startsFraction text && !before.any (·.isNamePart)) then
    some (.accept .number (Number.length text))
  else none

/-- Number of sigils of a special variable: one, or two at signs. -/
def sigilLength : List Char → Nat
  | '@' :: '@' :: _ => 2
  | _ => 1

/-- Length of the name of a special variable: a quoted run if it is closed, or
word characters. -/
def variableNameLength : List Char → Nat
  | [] => 0
  | c :: rest =>
    if c == '\'' || c == '"' || c == '\x60' then (Quoted.length? c false (c :: rest)).getD 0
    else Text.wordRun (c :: rest)

def specialVariable? (d : Dialect) : Recogniser
  | [] => none
  | c :: rest =>
    if d.isVariableChar c then
      let sigils := sigilLength (c :: rest)
      some (.accept .specialVariable (sigils + variableNameLength ((c :: rest).drop sigils)))
    else none

/-- The kind of a character that is a token by itself in every dialect. -/
def punctuationKind? (c : Char) : Option TokenKind :=
  if c == '.' then some .dot
  else if c == ';' then some .semicolon
  else if c == ',' then some .comma
  else if c == '(' || c == ')' then some .paren
  else if c == '[' || c == ']' then some .bracket
  else if c == '{' || c == '}' then some .brace
  else none

def punctuation? : Recogniser
  | [] => none
  | c :: _ => (punctuationKind? c).map fun kind => .accept kind 1

/-- Number of operator characters at the head of a text, up to where a comment
starts. -/
def operatorRun (d : Dialect) : List Char → Nat
  | [] => 0
  | c :: rest =>
    if d.isOperatorChar c && !Comment.startsLine d (c :: rest)
        && !Comment.startsBlock (c :: rest) then operatorRun d rest + 1
    else 0

def operator? (d : Dialect) : Recogniser
  | [] => none
  | c :: rest =>
    if d.isOperatorChar c then some (.accept .operator (operatorRun d rest + 1)) else none

/-- The kind of the word at the head of a text, where `before` is the kind of
the token before it: a name beside a dot, and otherwise what the tables say. -/
def wordKindAt (d : Dialect) (before : Option TokenKind) (text : List Char) : TokenKind :=
  if (text.drop (Text.wordRun text)).head? == some '.' || before == some .dot then .identifier
  else d.wordKind (text.take (Text.wordRun text))

/-- A word, where `before` is the kind of the token before it. -/
def word? (d : Dialect) (before : Option TokenKind) : Recogniser
  | [] => none
  | c :: rest =>
    if Text.isWordStart c then
      some (.accept (wordKindAt d before (c :: rest)) (Text.wordRun (c :: rest)))
    else none

/-! ### Progress -/

theorem whitespace?_progress : Recogniser.Progress whitespace? := by
  intro text m h
  unfold whitespace? at h
  split at h
  · simp at h
  · simp only [Option.ite_none_right_eq_some, Option.some.injEq] at h
    obtain ⟨hSpace, rfl⟩ := h
    exact Text.spaceRun_pos hSpace

theorem delimited_pos (quote : Char) (escapes : Bool) (kind : TokenKind) (unclosed : Fault)
    (c : Char) (rest : List Char) :
    0 < (delimited quote escapes kind unclosed (c :: rest)).length := by
  unfold delimited
  split
  · next n hn =>
    have := Quoted.length?_pos hn
    simp only [Match.accept_length]
    omega
  · simp

theorem string?_progress (d : Dialect) : Recogniser.Progress (string? d) := by
  intro text m h
  unfold string? at h
  split at h
  · simp at h
  · simp only [Option.ite_none_right_eq_some, Option.some.injEq] at h
    obtain ⟨_, rfl⟩ := h
    exact delimited_pos _ _ _ _ _ _

theorem quotedIdentifier?_progress (d : Dialect) :
    Recogniser.Progress (quotedIdentifier? d) := by
  intro text m h
  unfold quotedIdentifier? at h
  split at h
  · simp at h
  · simp only [Option.ite_none_right_eq_some, Option.some.injEq] at h
    obtain ⟨_, rfl⟩ := h
    exact delimited_pos _ _ _ _ _ _

theorem number?_progress (before : Option TokenKind) : Recogniser.Progress (number? before) := by
  intro text m h
  simp only [number?, Option.ite_none_right_eq_some, Option.some.injEq, Bool.or_eq_true,
    Bool.and_eq_true] at h
  obtain ⟨hStart, rfl⟩ := h
  exact Number.length_pos (hStart.imp id And.left)

theorem specialVariable?_progress (d : Dialect) : Recogniser.Progress (specialVariable? d) := by
  intro text m h
  unfold specialVariable? at h
  split at h
  · simp at h
  · next c rest =>
    simp only [Option.ite_none_right_eq_some, Option.some.injEq] at h
    obtain ⟨_, rfl⟩ := h
    have hSigils : 0 < sigilLength (c :: rest) := by
      unfold sigilLength
      split <;> decide
    simp only [Match.accept_length]
    omega

theorem punctuation?_progress : Recogniser.Progress punctuation? := by
  intro text m h
  unfold punctuation? at h
  split at h
  · simp at h
  · obtain ⟨kind, _, rfl⟩ := Option.map_eq_some_iff.1 h
    simp

theorem operator?_progress (d : Dialect) : Recogniser.Progress (operator? d) := by
  intro text m h
  unfold operator? at h
  split at h
  · simp at h
  · simp only [Option.ite_none_right_eq_some, Option.some.injEq] at h
    obtain ⟨_, rfl⟩ := h
    simp

theorem word?_progress (d : Dialect) (before : Option TokenKind) :
    Recogniser.Progress (word? d before) := by
  intro text m h
  unfold word? at h
  split at h
  · simp at h
  · simp only [Option.ite_none_right_eq_some, Option.some.injEq] at h
    obtain ⟨hStart, rfl⟩ := h
    exact Text.wordRun_pos (Text.isWordChar_of_isWordStart hStart)

end SqlTemplate.Symbol
