import SqlTemplate.Json.Numeral

/-!
# Symbols of JSON text

A JSON text is cut into marks, words, numerals and strings.  `symbols` goes
through the text from the left; where the text stops being JSON the list ends
with `garbage`, so that what comes before it can still be looked at.
-/

namespace SqlTemplate.Json

inductive Symbol where
  | openObject
  | closeObject
  | openArray
  | closeArray
  | colon
  | comma
  | null
  | bool (value : Bool)
  | number (value : Numeral)
  | text (value : String)
  /-- A string with an escaped surrogate that has no partner, which stands for
  no text. -/
  | loneSurrogate
  /-- Text that is not JSON. -/
  | garbage
deriving DecidableEq, Repr

/-- The blanks between symbols. -/
def isBlank (c : Char) : Bool := c == ' ' || c == '\t' || c == '\n' || c == '\r'

/-! ### Strings -/

/-- One item of a written string: a character, or a 16-bit unit given by four
hexadecimal digits. -/
inductive StringItem where
  | char (c : Char)
  | unit (code : Nat)
deriving DecidableEq, Repr

def hexValue? (c : Char) : Option Nat :=
  if c.isDigit then some (c.toNat - '0'.toNat)
  else if 'a' ≤ c ∧ c ≤ 'f' then some (c.toNat - 'a'.toNat + 10)
  else if 'A' ≤ c ∧ c ≤ 'F' then some (c.toNat - 'A'.toNat + 10)
  else none

/-- The value of four hexadecimal digits. -/
def unit? (a b c d : Char) : Option Nat := do
  return (((← hexValue? a) * 16 + (← hexValue? b)) * 16 + (← hexValue? c)) * 16 + (← hexValue? d)

/-- The character that a letter after a backslash stands for. -/
def escaped? (c : Char) : Option Char :=
  if c == '"' || c == '\\' || c == '/' then some c
  else if c == 'b' then some '\x08'
  else if c == 'f' then some '\x0C'
  else if c == 'n' then some '\n'
  else if c == 'r' then some '\r'
  else if c == 't' then some '\t'
  else none

/-- The items of a string, read from just after its opening quote, and the text
after its closing quote.  Control characters must be escaped. -/
def readString? : List Char → Option (List StringItem × List Char)
  | [] => none
  | '"' :: rest => some ([], rest)
  | '\\' :: 'u' :: a :: b :: c :: d :: rest => do
    let code ← unit? a b c d
    let (items, after) ← readString? rest
    return (.unit code :: items, after)
  | '\\' :: e :: rest => do
    let c ← escaped? e
    let (items, after) ← readString? rest
    return (.char c :: items, after)
  | c :: rest =>
    if c == '\\' || c.toNat < 0x20 then none
    else do
      let (items, after) ← readString? rest
      return (.char c :: items, after)

def isHighSurrogate (code : Nat) : Bool := 0xD800 ≤ code && code < 0xDC00

def isLowSurrogate (code : Nat) : Bool := 0xDC00 ≤ code && code < 0xE000

/-- The characters that the items stand for; two surrogates make one. -/
def assemble? : List StringItem → Option (List Char)
  | [] => some []
  | .char c :: rest => (assemble? rest).map (c :: ·)
  | .unit high :: .unit low :: rest =>
    if isHighSurrogate high && isLowSurrogate low then
      (assemble? rest).map (Char.ofNat (0x10000 + (high - 0xD800) * 0x400 + (low - 0xDC00)) :: ·)
    else if isHighSurrogate high || isLowSurrogate high then none
    else (assemble? (.unit low :: rest)).map (Char.ofNat high :: ·)
  | .unit code :: rest =>
    if isHighSurrogate code || isLowSurrogate code then none
    else (assemble? rest).map (Char.ofNat code :: ·)

def stringSymbol (items : List StringItem) : Symbol :=
  match assemble? items with
  | some chars => .text (String.ofList chars)
  | none => .loneSurrogate

/-! ### Symbols -/

/-- The symbol that a single character is. -/
def mark? (c : Char) : Option Symbol :=
  if c == '{' then some .openObject
  else if c == '}' then some .closeObject
  else if c == '[' then some .openArray
  else if c == ']' then some .closeArray
  else if c == ':' then some .colon
  else if c == ',' then some .comma
  else none

/-- The symbol at the head of a text that does not start with a blank, and the
text after it. -/
def symbol? : List Char → Option (Symbol × List Char)
  | [] => none
  | 'n' :: 'u' :: 'l' :: 'l' :: rest => some (.null, rest)
  | 't' :: 'r' :: 'u' :: 'e' :: rest => some (.bool true, rest)
  | 'f' :: 'a' :: 'l' :: 's' :: 'e' :: rest => some (.bool false, rest)
  | c :: rest =>
    match mark? c with
    | some mark => some (mark, rest)
    | none =>
      if c == '"' then (readString? rest).map fun (items, after) => (stringSymbol items, after)
      else (Numeral.read? (c :: rest)).map fun (n, after) => (.number n, after)

theorem length_lt_of_readString? {text after : List Char} {items : List StringItem}
    (h : readString? text = some (items, after)) : after.length < text.length := by
  fun_induction readString? text generalizing items with
  | case1 => simp at h
  | case2 rest => simp_all
  | case3 a b c d rest ih =>
    simp only [bind, Option.bind_eq_some_iff, pure, Option.some.injEq, Prod.mk.injEq] at h
    obtain ⟨_, _, ⟨items', after'⟩, hRest, _, rfl⟩ := h
    have hLength : after'.length < rest.length := ih hRest
    simp only [List.length_cons]
    omega
  | case4 e rest _ ih =>
    simp only [bind, Option.bind_eq_some_iff, pure, Option.some.injEq, Prod.mk.injEq] at h
    obtain ⟨_, _, ⟨items', after'⟩, hRest, _, rfl⟩ := h
    have hLength : after'.length < rest.length := ih hRest
    simp only [List.length_cons]
    omega
  | case5 => simp at h
  | case6 c rest _ _ _ _ ih =>
    simp only [bind, Option.bind_eq_some_iff, pure, Option.some.injEq, Prod.mk.injEq] at h
    obtain ⟨⟨items', after'⟩, hRest, _, rfl⟩ := h
    have hLength : after'.length < rest.length := ih hRest
    simp only [List.length_cons]
    omega

theorem length_lt_of_symbol? {text after : List Char} {s : Symbol}
    (h : symbol? text = some (s, after)) : after.length < text.length := by
  unfold symbol? at h
  split at h
  · simp at h
  · simp only [Option.some.injEq, Prod.mk.injEq] at h
    simp only [← h.2, List.length_cons]
    omega
  · simp only [Option.some.injEq, Prod.mk.injEq] at h
    simp only [← h.2, List.length_cons]
    omega
  · simp only [Option.some.injEq, Prod.mk.injEq] at h
    simp only [← h.2, List.length_cons]
    omega
  · split at h
    · simp only [Option.some.injEq, Prod.mk.injEq] at h
      simp only [← h.2, List.length_cons]
      omega
    · split at h
      · obtain ⟨⟨items, after'⟩, hRead, hEq⟩ := Option.map_eq_some_iff.1 h
        simp only [Prod.mk.injEq] at hEq
        have hLength := length_lt_of_readString? hRead
        simp only [← hEq.2, List.length_cons]
        omega
      · obtain ⟨⟨n, after'⟩, hRead, hEq⟩ := Option.map_eq_some_iff.1 h
        simp only [Prod.mk.injEq] at hEq
        rw [← hEq.2]
        exact Numeral.length_lt_of_read? hRead

/-- The symbols of a text. -/
def symbols (text : List Char) : List Symbol :=
  match text with
  | [] => []
  | c :: rest =>
    if isBlank c then symbols rest
    else
      match _h : symbol? (c :: rest) with
      | some (s, after) => s :: symbols after
      | none => [.garbage]
termination_by text.length
decreasing_by
  · simp
  · exact length_lt_of_symbol? _h

end SqlTemplate.Json
