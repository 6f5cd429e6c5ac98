import SqlTemplate.Dialect.Basic
import SqlTemplate.Lexeme
import SqlTemplate.Lexeme.Number
import SqlTemplate.Lexeme.Quoted
import SqlTemplate.Text.Search

/-!
# Literals with an introducer

Bits, hexadecimal numbers, escape strings, strings with a character set and
dollar-quoted strings all start with characters that could start something
else, so they are looked for before words, numbers and variables.
-/

namespace SqlTemplate.Literal

def isBinaryDigit (c : Char) : Bool := c == '0' || c == '1'

def isHexDigit (c : Char) : Bool :=
  c.isDigit || ('a' ≤ c && c ≤ 'f') || ('A' ≤ c && c ≤ 'F')

/-- Digits after a two-character introducer; there is at least one. -/
def digits? (kind : TokenKind) (isDigit : Char → Bool) (rest : List Char) : Option Match :=
  let count := (rest.takeWhile isDigit).length
  if 0 < count then some (.accept kind (count + 2)) else none

/-- Binary and hexadecimal digits without quotes: `0b01` and `0x1F`. -/
def radix? : Recogniser
  | '0' :: c :: rest =>
    if c.toLower == 'b' then digits? .bits isBinaryDigit rest
    else if c.toLower == 'x' then digits? .number isHexDigit rest
    else none
  | _ => none

/-- A quoted literal after a single letter: bytes if the dialect says so, and
otherwise binary digits. -/
def bits (d : Dialect) (quote : Char) (text : List Char) : Match :=
  match Quoted.length? quote (d.on .bitsAsBytes && d.on .backslashEscapes) text.tail with
  | none => .reject .unterminatedString text.length
  | some n =>
    if d.on .bitsAsBytes then .accept .bytes (n + 1)
    else if ((text.take n).drop 2).all isBinaryDigit then .accept .bits (n + 1)
    else .reject .malformedBits (n + 1)

/-- Quoted bits: `b'...'` and, where the dialect allows it, `b"..."`. -/
def bits? (d : Dialect) : Recogniser
  | c :: quote :: rest =>
    if c.toLower == 'b' && (quote == '\'' || (quote == '"' && d.on .doubleQuotedBits)) then
      some (bits d quote (c :: quote :: rest))
    else none
  | _ => none

/-- A quoted literal of hexadecimal digits after a single letter. -/
def hex (text : List Char) : Match :=
  match Quoted.length? '\'' false text.tail with
  | none => .reject .unterminatedString text.length
  | some n =>
    if ((text.take n).drop 2).all isHexDigit then .accept .number (n + 1)
    else .reject .malformedHex (n + 1)

/-- Quoted hexadecimal digits: `x'...'`. -/
def hex? : Recogniser
  | c :: '\'' :: rest => if c.toLower == 'x' then some (hex (c :: '\'' :: rest)) else none
  | _ => none

/-- A string between apostrophes after an introducer. -/
def introduced (introducer : Nat) (escapes : Bool) (text : List Char) : Match :=
  match Quoted.length? '\'' escapes (text.drop introducer) with
  | none => .reject .unterminatedString text.length
  | some n => .accept .string (introducer + n)

/-- An escape string, `e'...'`, in which a backslash always escapes. -/
def escape? : Recogniser
  | c :: '\'' :: rest =>
    if c.toLower == 'e' then some (introduced 1 true (c :: '\'' :: rest)) else none
  | _ => none

/-- A string in the national character set: `n'...'`. -/
def national? (d : Dialect) : Recogniser
  | c :: '\'' :: rest =>
    if c.toLower == 'n' && d.on .charsetStrings then
      some (introduced 1 (d.on .backslashEscapes) (c :: '\'' :: rest))
    else none
  | _ => none

/-- A string with a named character set: `_utf8'...'`.  The name has at least
two letters or digits. -/
def charset? (d : Dialect) : Recogniser
  | '_' :: rest =>
    let name := (rest.takeWhile Char.isAlphanum).length
    if d.on .charsetStrings && 2 ≤ name && (rest.drop name).head? == some '\'' then
      some (introduced (name + 1) (d.on .backslashEscapes) ('_' :: rest))
    else none
  | _ => none

/-- Length of the tag of a dollar quote, read from just after its first dollar.
The tag is empty or a word, and a dollar follows it. -/
def tagLength? (text : List Char) : Option Nat :=
  match text with
  | '$' :: _ => some 0
  | _ =>
    let tag := Text.wordRun text
    if Text.startsWord text && (text.drop tag).head? == some '$' then some tag else none

/-- A dollar-quoted string: from its delimiter, of `width` characters, to the
next occurrence of it. -/
def dollar (width : Nat) (text : List Char) : Match :=
  match Text.indexOf? (text.take width) (text.drop width) with
  | some n => .accept .string (width + n + width)
  | none => .reject .unterminatedDollarString text.length

/-- Dollar-quoted strings: `$$...$$` and `$tag$...$tag$`. -/
def dollar? (d : Dialect) : Recogniser
  | '$' :: rest =>
    if d.on .dollarQuotes then (tagLength? rest).map fun tag => dollar (tag + 2) ('$' :: rest)
    else none
  | _ => none

/-- The forms of literals.  Their first characters tell them apart. -/
def forms (d : Dialect) : List Recogniser :=
  [radix?, bits? d, hex?, escape?, national? d, charset? d, dollar? d]

/-- The literal at the head of a text. -/
def match? (d : Dialect) : Recogniser := Recogniser.firstOf (forms d)

/-! ### Progress -/

theorem digits?_progress (kind : TokenKind) (isDigit : Char → Bool) :
    Recogniser.Progress (digits? kind isDigit) := by
  intro rest m h
  simp only [digits?, Option.ite_none_right_eq_some, Option.some.injEq] at h
  obtain ⟨_, rfl⟩ := h
  simp

theorem radix?_progress : Recogniser.Progress radix? := by
  intro text m h
  unfold radix? at h
  split at h
  · split at h
    · exact digits?_progress _ _ _ _ h
    · split at h
      · exact digits?_progress _ _ _ _ h
      · simp at h
  · simp at h

theorem bits?_progress (d : Dialect) : Recogniser.Progress (bits? d) := by
  intro text m h
  unfold bits? at h
  split at h
  · simp only [Option.ite_none_right_eq_some, Option.some.injEq] at h
    obtain ⟨_, rfl⟩ := h
    unfold bits
    split
    · simp
    · split
      · simp
      · split <;> simp
  · simp at h

theorem hex?_progress : Recogniser.Progress hex? := by
  intro text m h
  unfold hex? at h
  split at h
  · simp only [Option.ite_none_right_eq_some, Option.some.injEq] at h
    obtain ⟨_, rfl⟩ := h
    unfold hex
    split
    · simp
    · split <;> simp
  · simp at h

theorem introduced_pos (introducer : Nat) (escapes : Bool) (c : Char) (rest : List Char) :
    0 < (introduced introducer escapes (c :: rest)).length := by
  unfold introduced
  split
  · simp
  · next n hn =>
    have := Quoted.length?_pos hn
    simp only [Match.accept_length]
    omega

theorem escape?_progress : Recogniser.Progress escape? := by
  intro text m h
  unfold escape? at h
  split at h
  · simp only [Option.ite_none_right_eq_some, Option.some.injEq] at h
    obtain ⟨_, rfl⟩ := h
    exact introduced_pos _ _ _ _
  · simp at h

theorem national?_progress (d : Dialect) : Recogniser.Progress (national? d) := by
  intro text m h
  unfold national? at h
  split at h
  · simp only [Option.ite_none_right_eq_some, Option.some.injEq] at h
    obtain ⟨_, rfl⟩ := h
    exact introduced_pos _ _ _ _
  · simp at h

theorem charset?_progress (d : Dialect) : Recogniser.Progress (charset? d) := by
  intro text m h
  unfold charset? at h
  split at h
  · simp only [Option.ite_none_right_eq_some, Option.some.injEq] at h
    obtain ⟨_, rfl⟩ := h
    exact introduced_pos _ _ _ _
  · simp at h

theorem dollar?_progress (d : Dialect) : Recogniser.Progress (dollar? d) := by
  intro text m h
  unfold dollar? at h
  split at h
  · simp only [Option.ite_none_right_eq_some, Option.map_eq_some_iff] at h
    obtain ⟨_, tag, _, rfl⟩ := h
    unfold dollar
    split
    · simp only [Match.accept_length]
      omega
    · simp
  · simp at h

theorem match?_progress (d : Dialect) : Recogniser.Progress (match? d) := by
  apply Recogniser.firstOf_progress
  simp only [forms, List.forall_mem_cons, List.not_mem_nil, false_imp_iff, implies_true, and_true]
  exact ⟨radix?_progress, bits?_progress d, hex?_progress, escape?_progress,
    national?_progress d, charset?_progress d, dollar?_progress d⟩

end SqlTemplate.Literal
