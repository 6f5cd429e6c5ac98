import Mathlib.Data.List.TakeWhile
import SqlTemplate.Lexeme.Whole
import SqlTemplate.Proofs.LetterCase
import SqlTemplate.Proofs.SelfDelimiting
import SqlTemplate.Proofs.Substitution

/-!
# The kind of a whole text

`Dialect.kindOf` looks at a text as a whole, and scanning reads it from its head.
Both know literals, words and numbers, and this file compares what they make of them.

A source is one token exactly if the first step of reading takes all of it
(`scan_of_next`, `Lexeme.next_of_scan`).  So it is enough to compare `kindOf` with one
step:

* `Lexeme.next_of_literal`, `Lexeme.next_of_wordChar`: before a literal, a word or a
  number nothing else is found.  For words and numbers that rests on what a valid
  dialect keeps out of its sets of characters.
* `scan_of_kindOf`: a text that has a kind is one token of that kind.
* `kindOf_of_scan`: a word, a number, bits or bytes that make up a source have their
  kind, unless it is a number that starts with a dot.
-/

namespace SqlTemplate

open Verdict (accept)

variable {d : Dialect} {text : List Char}

/-! ### Sources of one token -/

/-- A source that one step takes as a whole is one token. -/
theorem scan_of_next {kind : TokenKind} (hText : text ≠ [])
    (hKind : kind ∉ [TokenKind.error, .dot, .regionQuote])
    (h : Lexeme.next d none text = .accept kind text.length) :
    (d.scan text).diagnostics = [] ∧
      (d.scan text).tokens = [⟨kind, ⟨0, Text.byteLength text, 1, 1⟩⟩] := by
  have hFaultless := Faultless.of_next hText hKind h
  refine ⟨hFaultless.diagnostics_eq_nil, ?_⟩
  rw [hFaultless.tokens_eq, tokensAt_cons, tokensAt_nil, Span.ofText]
  simp only [Position.start, Nat.zero_add]
  rfl

/-- A source that is one token is taken as a whole by one step. -/
theorem Lexeme.next_of_scan {kind : TokenKind} (hKind : kind.isOuter = true)
    (h : (d.scan text).kinds = [kind]) : next d none text = .accept kind text.length := by
  have hKinds : (settledLexemes d text).map Lexeme.kind = [kind] := by
    rw [← kind_tokensAt .start, ← tokens_scan]
    exact h
  rw [settledLexemes] at hKinds
  cases hLexemes : lexemes d none text with
  | nil =>
    rw [hLexemes] at hKinds
    cases hKinds
  | cons y ys =>
    rw [hLexemes, settleDots, List.map_cons, List.cons.injEq, List.map_eq_nil_iff] at hKinds
    obtain ⟨hHead, hRest⟩ := hKinds
    have hys : ys = [] := by
      cases ys with
      | nil => rfl
      | cons z zs => cases hRest
    subst hys
    -- a dot that joins nothing is an error, and no token outside regions is one
    have hy : y.kind = kind := by
      have hError : kind ≠ .error := by
        rintro rfl
        cases hKind
      rw [← hHead] at hError ⊢
      rw [settled_eq_self hError]
    have hWhole : y.text = text := by
      rw [← text_lexemes d none text, hLexemes]
      simp
    rw [← hy] at hKind
    rw [(next_of_lexemes hKind hLexemes).1, hy, hWhole]

/-! ### Literals, words and numbers at the head of a text -/

/-- Placeholders start and end with braces. -/
theorem Placeholder.starts_of_ne {c : Char} (hOpen : c ≠ '{') (hClose : c ≠ '}')
    (rest : List Char) : startsOpen (c :: rest) = false ∧ startsClose (c :: rest) = false := by
  cases rest <;>
    simp [startsOpen, startsClose, Brackets.startsWith, Brackets.placeholder, hOpen, hClose]

theorem Literal.head_of_match? {m : Match} (h : Literal.match? d text = some m) :
    ∃ c rest, text = c :: rest ∧ (c ∈ ['0', '_', '$'] ∨ c.toLower ∈ ['b', 'x', 'e', 'n']) := by
  cases text with
  | nil => cases h
  | cons c rest =>
    refine ⟨c, rest, rfl, ?_⟩
    rw [← Decidable.not_not (p := _ ∨ _), not_or]
    rintro ⟨hFirst, hLetter⟩
    rw [Literal.match?_eq_none hFirst hLetter] at h
    cases h

/-- **A literal is found before anything else.** -/
theorem Lexeme.next_of_literal {before : Option TokenKind} {m : Match}
    (h : Literal.match? d text = some m) : next d before text = m := by
  obtain ⟨c, rest, rfl, hHead⟩ := Literal.head_of_match? h
  have hFacts : (['0', '_', '$', 'b', 'x', 'e', 'n'].all fun x =>
      decide (Text.isSpace x = false ∧ x ∉ ['\'', '{', '}'])) = true := by
    decide
  have hLower : c.toLower ∈ ['0', '_', '$', 'b', 'x', 'e', 'n'] := by
    rcases hHead with hFirst | hLetter
    · simp only [List.mem_cons, List.not_mem_nil, or_false] at hFirst
      rcases hFirst with rfl | rfl | rfl <;> decide
    · exact List.mem_append_right ['0', '_', '$'] hLetter
  obtain ⟨hSpace, hMark⟩ := of_decide_eq_true (List.all_eq_true.1 hFacts c.toLower hLower)
  rw [Text.isSpace_toLower] at hSpace
  have hNe : c ≠ '\'' ∧ c ≠ '{' ∧ c ≠ '}' := by
    refine ⟨?_, ?_, ?_⟩ <;>
      · rintro rfl
        exact hMark (by decide)
  obtain ⟨hOpen, hClose⟩ := Placeholder.starts_of_ne hNe.2.1 hNe.2.2 rest
  simp [next, Recogniser.firstOf, forms, Symbol.whitespace?, hSpace, Placeholder.match?, hOpen,
    Placeholder.unmatchedClose?, hClose, Region.apostrophe?, hNe.1, h]

theorem Dialect.isReserved_of_isWordChar {c : Char} (h : Text.isWordChar c = true) :
    isReserved c = true := by
  simp only [Text.isWordChar, Bool.or_eq_true] at h
  rcases h with h | h <;> simp [isReserved, h]

/-- **At a word character that starts no literal there is a number or a word.** -/
theorem Lexeme.next_of_wordChar (hd : d.Valid) {before : Option TokenKind} {c : Char}
    {rest : List Char} (hc : Text.isWordChar c = true)
    (hLiteral : Literal.match? d (c :: rest) = none) :
    next d before (c :: rest) =
      ((Symbol.number? before (c :: rest)).or (Symbol.word? d before (c :: rest))).getD
        (.reject .unexpectedCharacter 1) := by
  have hFacts : ((['\'', '-', '#', '/', '"'] ++ Symbol.marks).all fun x =>
      !Text.isWordChar x) = true := by
    decide
  have hSigns : c ∉ ['\'', '-', '#', '/', '"'] ++ Symbol.marks := by
    intro hMem
    have hNot := List.all_eq_true.1 hFacts c hMem
    rw [hc] at hNot
    cases hNot
  have hSpace : Text.isSpace c = false := by
    rw [← Bool.not_eq_true]
    intro hSpace
    rw [Text.isWordChar_of_isStop (Text.isStop_of_isSpace hSpace)] at hc
    cases hc
  have hFirst : c ∉ ['\'', '-', '#', '/'] := fun hMem =>
    hSigns (List.mem_append_left (['"'] ++ Symbol.marks) hMem)
  have hNe : c ≠ '"' ∧ c ≠ '{' ∧ c ≠ '}' := by
    refine ⟨?_, ?_, ?_⟩ <;>
      · rintro rfl
        exact hSigns (by decide)
  obtain ⟨hOpen, hClose⟩ := Placeholder.starts_of_ne hNe.2.1 hNe.2.2 rest
  have hPunctuation : Symbol.punctuationKind? c = none := by
    rw [Option.eq_none_iff_forall_ne_some]
    intro kind hKind
    exact hSigns (List.mem_append_right _ (Symbol.mem_marks hKind))
  have hReserved := Dialect.isReserved_of_isWordChar hc
  rw [next_of_not_literal hSpace hFirst hLiteral hOpen hClose]
  cases hNumber : Symbol.number? before (c :: rest) <;>
    simp [Recogniser.firstOf, lateForms, Symbol.string?, hNe.1, Symbol.quotedIdentifier?,
      hd.not_identifierQuote hReserved, hNumber, Symbol.specialVariable?,
      hd.not_variable hReserved, Symbol.punctuation?, hPunctuation, Symbol.operator?,
      hd.not_operator hReserved]

/-! ### Whole words and numbers -/

namespace Text

variable {c : Char}

theorem isNumeric_of_isDigit (h : c.isDigit = true) : isNumeric c = true := by
  have hLast : c.toNat ≤ 0x39 := (Char.isDigit_iff_toNat.1 h).2
  rw [isNumeric_of_ascii (by omega), h]

theorem isWordChar_of_isDigit (h : c.isDigit = true) : isWordChar c = true := by
  simp [isWordChar, isAlphanumeric, isNumeric_of_isDigit h]

/-- No word starts with a digit. -/
theorem isWordStart_of_isDigit (h : c.isDigit = true) : isWordStart c = false := by
  have hLast : c.toNat ≤ 0x39 := (Char.isDigit_iff_toNat.1 h).2
  have hAlpha : c.isAlpha = false := by
    rw [← Bool.not_eq_true]
    intro hAlpha
    rcases Bool.or_eq_true_iff.1 hAlpha with hUpper | hLower
    · have hBound : 0x41 ≤ c.toNat := (of_decide_eq_true hUpper).1
      omega
    · have hBound : 0x61 ≤ c.toNat := of_decide_eq_true (Bool.and_eq_true_iff.1 hLower).1
      omega
  have hUnderscore : c ≠ '_' := by
    rintro rfl
    cases h
  simp [isWordStart, isAlphabetic_of_ascii (show c.toNat < 0x80 by omega), hAlpha, hUnderscore]

theorem wordRun_eq_length_iff : wordRun text = text.length ↔ text.all isWordChar = true := by
  rw [wordRun, List.all_eq_true, ← List.takeWhile_eq_self_iff]
  exact ⟨fun h => (List.takeWhile_prefix _).eq_of_length h, congrArg List.length⟩

theorem isWord_iff : isWord text = true ↔ startsWord text = true ∧ wordRun text = text.length := by
  cases text with
  | nil => simp [isWord, startsWord]
  | cons c rest =>
    rw [wordRun_eq_length_iff, isWord, startsWord, List.all_cons, Bool.and_eq_true,
      Bool.and_eq_true]
    exact ⟨fun h => ⟨h.1, isWordChar_of_isWordStart h.1, h.2⟩, fun h => ⟨h.1, h.2.2⟩⟩

end Text

namespace Symbol

/-- A word that is all of a text. -/
theorem word?_eq_some_iff {kind : TokenKind} :
    word? d none text = some (.accept kind text.length) ↔
      Text.isWord text = true ∧ d.wordKind text = kind := by
  rw [Text.isWord_iff]
  cases text with
  | nil => simp [word?, Text.startsWord]
  | cons c rest =>
    rw [word?, Option.ite_none_right_eq_some, Option.some.injEq, Text.startsWord]
    constructor
    · rintro ⟨hStart, hMatch⟩
      have hRun : Text.wordRun (c :: rest) = (c :: rest).length := congrArg Match.length hMatch
      have hKind : wordKindAt d none (c :: rest) = kind := congrArg Match.kind hMatch
      rw [Lexeme.wordKindAt_of_whole hRun] at hKind
      exact ⟨⟨hStart, hRun⟩, hKind⟩
    · rintro ⟨⟨hStart, hRun⟩, hKind⟩
      rw [Lexeme.wordKindAt_of_whole hRun, hRun, hKind]
      exact ⟨hStart, rfl⟩

/-- No number starts like a word. -/
theorem number?_of_isWordStart {before : Option TokenKind} {c : Char}
    (hc : Text.isWordStart c = true) (rest : List Char) : number? before (c :: rest) = none := by
  have hDigit : c.isDigit = false := by
    rw [← Bool.not_eq_true]
    intro hDigit
    rw [Text.isWordStart_of_isDigit hDigit] at hc
    cases hc
  have hDot : c ≠ '.' := by
    rintro rfl
    revert hc
    decide
  simp [number?, Number.startsDigit, hDigit, Number.startsFraction, hDot]

/-- A number that is all of a text. -/
theorem number?_eq_some_iff {kind : TokenKind} :
    number? none text = some (.accept kind text.length) ↔
      (Number.startsDigit text = true ∨ Number.startsFraction text = true) ∧
        Number.length text = text.length ∧ kind = .number := by
  rw [number?, Option.ite_none_right_eq_some, Option.some.injEq, Bool.or_eq_true]
  constructor
  · rintro ⟨hStart, hMatch⟩
    refine ⟨?_, congrArg Match.length hMatch, (congrArg Match.kind hMatch).symm⟩
    simpa using hStart
  · rintro ⟨hStart, hLength, rfl⟩
    refine ⟨by simpa using hStart, by rw [hLength]⟩

end Symbol

/-- The text is one literal, one word or one number with a digit in front, and this
is its kind. -/
inductive WholeKind (d : Dialect) (text : List Char) : TokenKind → Prop
  | literal {kind : TokenKind} (h : Literal.match? d text = some (.accept kind text.length)) :
      WholeKind d text kind
  | word (hLiteral : Literal.match? d text = none) (hWord : Text.isWord text = true) :
      WholeKind d text (d.wordKind text)
  | number (hLiteral : Literal.match? d text = none) (hDigit : Number.startsDigit text = true)
      (hLength : Number.length text = text.length) : WholeKind d text .number

theorem Text.not_isWord_of_startsDigit (h : Number.startsDigit text = true) :
    isWord text = false := by
  cases text with
  | nil => cases h
  | cons c rest =>
    rw [isWord, isWordStart_of_isDigit h]
    rfl

/-- **What `kindOf` decides.** -/
theorem Dialect.kindOf_eq_iff {kind : TokenKind} (hKind : kind ≠ .error) :
    d.kindOf text = kind ↔ WholeKind d text kind := by
  constructor
  · intro h
    unfold kindOf at h
    split at h
    · next m hLiteral =>
      split at h
      · next hLength =>
        obtain ⟨found, n, rfl⟩ := Match.exists_accept (m := m) (by rwa [h])
        rw [Match.accept_length] at hLength
        have hFound : found = kind := h
        rw [hLength, hFound] at hLiteral
        exact .literal hLiteral
      · exact absurd h.symm hKind
    · next hLiteral =>
      split at h
      · next hWord =>
        rw [← h]
        exact .word hLiteral hWord
      · split at h
        · next hNumber =>
          rw [Bool.and_eq_true, beq_iff_eq] at hNumber
          rw [← h]
          exact .number hLiteral hNumber.1 hNumber.2
        · exact absurd h.symm hKind
  · rintro (hLiteral | ⟨hLiteral, hWord⟩ | ⟨hLiteral, hDigit, hLength⟩)
    · simp only [kindOf, hLiteral, Match.accept_length, if_true]
      rfl
    · simp only [kindOf, hLiteral, hWord, if_true]
    · simp [kindOf, hLiteral, Text.not_isWord_of_startsDigit hDigit, hDigit, hLength]

namespace WholeKind

variable {kind : TokenKind}

theorem text_ne_nil (h : WholeKind d text kind) : text ≠ [] := by
  rintro rfl
  rcases h with hLiteral | ⟨_, hWord⟩ | ⟨_, hDigit, _⟩
  · cases hLiteral
  · cases hWord
  · cases hDigit

/-- Nothing of these kinds starts with a dot. -/
theorem head_ne_dot (h : WholeKind d text kind) : text.head? ≠ some '.' := by
  cases text with
  | nil => simp
  | cons c rest =>
    rw [List.head?_cons, ne_eq, Option.some.injEq]
    rintro rfl
    rcases h with hLiteral | ⟨_, hWord⟩ | ⟨_, hDigit, _⟩
    · rw [Literal.match?_eq_none (by decide) (by decide)] at hLiteral
      cases hLiteral
    · have hDot : Text.isWordStart '.' = false := by decide
      rw [Text.isWord, hDot] at hWord
      cases hWord
    · cases hDigit

theorem kind_not_mem (h : WholeKind d text kind) :
    kind ∉ [TokenKind.error, .dot, .regionQuote] := by
  rcases h with hLiteral | ⟨_, _⟩ | ⟨_, _, _⟩
  · have hVerdict := (Literal.match?_yields d text _ hLiteral).2
    rw [Match.accept_verdict] at hVerdict
    have hNone : ∀ x ∈ [TokenKind.error, .dot, .regionQuote],
        accept x ∉ Literal.verdicts := by
      decide
    exact fun hMem => hNone kind hMem hVerdict
  · exact d.wordKind_not_mem text
  · decide

/-- **One step reads such a text as a whole.** -/
theorem next_eq (hd : d.Valid) (h : WholeKind d text kind) :
    Lexeme.next d none text = .accept kind text.length := by
  rcases h with hLiteral | ⟨hLiteral, hWord⟩ | ⟨hLiteral, hDigit, hLength⟩
  · exact Lexeme.next_of_literal hLiteral
  · have hFound : Symbol.word? d none text = some (.accept (d.wordKind text) text.length) :=
      Symbol.word?_eq_some_iff.2 ⟨hWord, rfl⟩
    cases text with
    | nil => cases hWord
    | cons c rest =>
      have hStart : Text.isWordStart c = true := (Bool.and_eq_true_iff.1 hWord).1
      rw [Lexeme.next_of_wordChar hd (Text.isWordChar_of_isWordStart hStart) hLiteral,
        Symbol.number?_of_isWordStart hStart, hFound]
      rfl
  · have hFound := Symbol.number?_eq_some_iff.2 ⟨Or.inl hDigit, hLength, rfl⟩
    cases text with
    | nil => cases hDigit
    | cons c rest =>
      rw [Lexeme.next_of_wordChar hd (Text.isWordChar_of_isDigit hDigit) hLiteral, hFound]
      rfl

end WholeKind

/-! ### Classifying and scanning -/

/-- The kinds of words and of the literals that are no strings. -/
def wholeKinds : List TokenKind := [.keyword, .typeName, .identifier, .number, .bits, .bytes]

/-- The forms of lexemes that have these kinds. -/
theorem Lexeme.Form.mem_of_wholeKinds {f : Form} {kind : TokenKind} (hKind : kind ∈ wholeKinds)
    (h : accept kind ∈ f.verdicts) : f ∈ [literal, number, word] := by
  have hForms : ∀ x ∈ wholeKinds, accept x ∈ f.verdicts → f ∈ [literal, number, word] := by
    cases f <;> decide
  exact hForms kind hKind h

/-- **A word or such a literal that one step takes as a whole**, unless a dot stands in
front. -/
theorem WholeKind.of_next {kind : TokenKind} (hKind : kind ∈ wholeKinds)
    (hDot : text.head? ≠ some '.') (h : Lexeme.next d none text = .accept kind text.length) :
    WholeKind d text kind := by
  cases hLiteral : Literal.match? d text with
  | some m =>
    rw [Lexeme.next_of_literal hLiteral] at h
    rw [h] at hLiteral
    exact .literal hLiteral
  | none =>
    rcases Lexeme.next_cases d none text with ⟨f, hFound, hVerdict⟩ | hNext
    · rw [h] at hFound hVerdict
      have hForm := Lexeme.Form.mem_of_wholeKinds hKind hVerdict
      simp only [List.mem_cons, List.not_mem_nil, or_false] at hForm
      rcases hForm with rfl | rfl | rfl
      · rw [Lexeme.Form.recogniser, hLiteral] at hFound
        cases hFound
      · obtain ⟨hStart, hLength, rfl⟩ := Symbol.number?_eq_some_iff.1 hFound
        rw [Number.startsFraction_of_head hDot] at hStart
        exact .number hLiteral (hStart.resolve_right Bool.false_ne_true) hLength
      · obtain ⟨hWord, rfl⟩ := Symbol.word?_eq_some_iff.1 hFound
        exact .word hLiteral hWord
    · rw [hNext] at h
      cases congrArg Match.verdict h

/-- **A text that has a kind is one token of that kind.** -/
theorem scan_of_kindOf (d : Dialect) (hd : d.Valid) (text : List Char)
    (hKind : d.kindOf text ≠ .error) :
    (d.scan text).diagnostics = [] ∧
      (d.scan text).tokens = [⟨d.kindOf text, ⟨0, Text.byteLength text, 1, 1⟩⟩] := by
  have hWhole := (Dialect.kindOf_eq_iff hKind).1 rfl
  exact scan_of_next hWhole.text_ne_nil hWhole.kind_not_mem (hWhole.next_eq hd)

/-- Bytes in a dialect with backslashes: the quote after one does not end them. -/
theorem scan_of_kindOf_bytes :
    Preset.bigquery.rules.kindOf "b'\\''".toList = .bytes ∧
      (Preset.bigquery.rules.scan "b'\\''".toList).diagnostics = [] ∧
      (Preset.bigquery.rules.scan "b'\\''".toList).tokens = [⟨.bytes, ⟨0, 5, 1, 1⟩⟩] := by
  have hBytes : Preset.bigquery.rules.kindOf "b'\\''".toList = .bytes := by decide +kernel
  have hScan := scan_of_kindOf Preset.bigquery.rules (Preset.rules_valid .bigquery)
    "b'\\''".toList (by rw [hBytes]; decide)
  rw [hBytes] at hScan
  exact ⟨hBytes, hScan⟩

theorem Dialect.kindOf_of_dot (h : text.head? = some '.') : d.kindOf text = .error := by
  rw [← Decidable.not_not (p := d.kindOf text = .error)]
  intro hKind
  exact ((kindOf_eq_iff hKind).1 rfl).head_ne_dot h

/-- **A word, a number, bits or bytes that make up a source have their kind**, except
for the numbers that start with a dot: those are read as numbers and have no kind. -/
theorem kindOf_of_scan (d : Dialect) (text : List Char) (kind : TokenKind)
    (hKind : kind ∈ [.keyword, .typeName, .identifier, .number, .bits, .bytes])
    (h : (d.scan text).kinds = [kind]) :
    d.kindOf text = if text.head? = some '.' then .error else kind := by
  have hFacts : ∀ x ∈ wholeKinds, x.isOuter = true ∧ x ≠ .error := by decide
  obtain ⟨hOuter, hError⟩ := hFacts kind hKind
  split
  · next hDot => exact Dialect.kindOf_of_dot hDot
  · next hDot =>
    rw [Dialect.kindOf_eq_iff hError]
    exact WholeKind.of_next hKind hDot (Lexeme.next_of_scan hOuter h)

/-- A number with a fraction and an exponent. -/
theorem kindOf_of_scan_exponent :
    (Preset.standard.rules.scan "1.5e-3".toList).kinds = [.number] ∧
      Preset.standard.rules.kindOf "1.5e-3".toList = .number := by
  have hScan : (Preset.standard.rules.scan "1.5e-3".toList).kinds = [.number] := by
    decide +kernel
  have hKind := kindOf_of_scan Preset.standard.rules "1.5e-3".toList .number (by decide) hScan
  rw [if_neg (by decide)] at hKind
  exact ⟨hScan, hKind⟩

/-- A number without digits before its dot has no kind. -/
theorem kindOf_fraction :
    (Preset.standard.rules.scan ".5".toList).kinds = [.number] ∧
      Preset.standard.rules.kindOf ".5".toList = .error := by
  decide +kernel

end SqlTemplate
