import SqlTemplate.Proofs.Classification

/-!
# Characters with a role

A dialect lists the characters of its operators, of its special variables and of its
identifier quotes.  Reading asks for them last, after whitespace, literals, comments and
strings, and a valid dialect keeps most of the characters of those out of its sets.  This
file says which ones it does not keep out:

* `Lexeme.next_of_free`: at a character without a fixed meaning there is what the dialect
  uses it for, unless one of those four starts there.
* `CharRole.isTaken`: where one of them does.  The byte order mark is whitespace but no
  blank; a double quote may be an operator although it opens strings; `#` and `$` may
  quote identifiers although comments and dollar quotes start with them.
* `scan_charRole_iff`: all other characters are read in their role.
-/

namespace SqlTemplate

open Verdict (accept reject)

variable {d : Dialect} {before : Option TokenKind} {c : Char} {rest : List Char}

/-- The source is exactly one token of this kind, and nothing is wrong with it. -/
def Dialect.ReadsAs (d : Dialect) (source : List Char) (kind : TokenKind) : Prop :=
  (d.scan source).diagnostics = [] ∧
    (d.scan source).tokens = [⟨kind, ⟨0, Text.byteLength source, 1, 1⟩⟩]

/-- A source is one token exactly if the first step takes all of it. -/
theorem Dialect.readsAs_iff {source : List Char} {kind : TokenKind} (hSource : source ≠ [])
    (hOuter : kind.isOuter = true) (hDot : kind ≠ .dot) :
    d.ReadsAs source kind ↔ Lexeme.next d none source = .accept kind source.length := by
  constructor
  · intro h
    refine Lexeme.next_of_scan hOuter ?_
    rw [TokenStream.kinds, h.2]
    rfl
  · intro h
    refine scan_of_next hSource ?_ h
    have hFacts : ∀ k ∈ [TokenKind.error, .dot, .regionQuote], k.isOuter = true → k = .dot := by
      decide
    exact fun hMem => hDot (hFacts kind hMem hOuter)

/-! ### Characters without a fixed meaning -/

namespace Dialect

theorem not_isWordChar_of_free (h : isReserved c = false) : Text.isWordChar c = false := by
  rw [← Bool.not_eq_true]
  intro hWord
  rw [isReserved_of_isWordChar hWord] at h
  cases h

theorem not_structural_of_free (h : isReserved c = false) : c ∉ structuralChars := by
  intro hMem
  simp [isReserved, hMem] at h

/-- Of these characters only the byte order mark is whitespace. -/
theorem isSpace_of_free (h : isReserved c = false) : Text.isSpace c = (c == '\uFEFF') := by
  simp only [isReserved, Bool.or_eq_false_iff] at h
  rw [Text.isSpace, h.1.1.1, Bool.false_or]

end Dialect

namespace Literal

/-- Of the literals only dollar quotes start with such a character. -/
theorem match?_of_free (h : Dialect.isReserved c = false) (rest : List Char) :
    match? d (c :: rest) = dollar? d (c :: rest) := by
  have hWord := Dialect.not_isWordChar_of_free h
  have hFirst : c ∉ ['0', '_'] := by
    intro hMem
    have hFacts : ['0', '_'].all Text.isWordChar = true := by decide
    rw [List.all_eq_true.1 hFacts c hMem] at hWord
    cases hWord
  have hLetter : c.toLower ∉ ['b', 'x', 'e', 'n'] := by
    intro hMem
    have hFacts : ['b', 'x', 'e', 'n'].all Text.isWordChar = true := by decide
    have hLower := List.all_eq_true.1 hFacts _ hMem
    rw [Text.isWordChar_toLower, hWord] at hLower
    cases hLower
  exact match?_eq_dollar? hFirst hLetter rest

theorem dollar?_of_ne (h : c = '$' → d.on .dollarQuotes = false) :
    dollar? d (c :: rest) = none := by
  unfold dollar?
  split
  · next hHead => simp [h (List.cons.inj hHead).1]
  · rfl

theorem dollar?_singleton (d : Dialect) (c : Char) : dollar? d [c] = none := by
  unfold dollar?
  split
  · next hHead =>
    cases hHead
    simp [tagLength?, Text.startsWord]
  · rfl

end Literal

namespace Lexeme

/-- **At a character without a fixed meaning** there is what the dialect uses it for,
unless whitespace, a literal, a comment or a string starts there. -/
theorem next_of_free (hFree : Dialect.isReserved c = false) (hMark : c ≠ '\uFEFF')
    (hLiteral : Literal.match? d (c :: rest) = none)
    (hLine : Comment.startsLine d (c :: rest) = false)
    (hBlock : Comment.startsBlock (c :: rest) = false)
    (hString : c = '"' → d.on .doubleQuotedStrings = false) :
    next d before (c :: rest) =
      ((Symbol.quotedIdentifier? d (c :: rest)).or ((Symbol.specialVariable? d (c :: rest)).or
        (Symbol.operator? d (c :: rest)))).getD (.reject .unexpectedCharacter 1) := by
  have hWord := Dialect.not_isWordChar_of_free hFree
  have hStructural := Dialect.not_structural_of_free hFree
  simp only [Dialect.structuralChars, List.mem_cons, List.not_mem_nil, or_false,
    not_or] at hStructural
  obtain ⟨hQuote, hOpen, hClose, _, _, _, _, hDot, _, _⟩ := hStructural
  have hSpace : Text.isSpace c = false := by
    rw [Dialect.isSpace_of_free hFree]
    simpa using hMark
  obtain ⟨hStartsOpen, hStartsClose⟩ := Placeholder.starts_of_ne hOpen hClose rest
  have hDouble : Symbol.string? d (c :: rest) = none := by
    simpa [Symbol.string?] using hString
  have hNumber : Symbol.number? before (c :: rest) = none := by
    have hDigit : c.isDigit = false := by
      rw [← Bool.not_eq_true]
      intro hDigit
      rw [Text.isWordChar_of_isDigit hDigit] at hWord
      cases hWord
    simp [Symbol.number?, Number.startsDigit, hDigit, Number.startsFraction, hDot]
  have hPunctuation : Symbol.punctuation? (c :: rest) = none := by
    have hKind : Symbol.punctuationKind? c = none := by simp_all [Symbol.punctuationKind?]
    rw [Symbol.punctuation?, hKind]
    rfl
  have hNoWord : Symbol.word? d before (c :: rest) = none := by
    have hStart : Text.isWordStart c = false := by
      rw [← Bool.not_eq_true]
      intro hStart
      rw [Text.isWordChar_of_isWordStart hStart] at hWord
      cases hWord
    simp [Symbol.word?, hStart]
  rw [next_eq_lateForms hSpace hQuote hStartsOpen hStartsClose hLiteral hLine hBlock]
  simp only [Recogniser.firstOf, lateForms, List.findSome?_cons, List.findSome?_nil, hDouble,
    hNumber, hPunctuation, hNoWord]
  cases Symbol.quotedIdentifier? d (c :: rest) <;>
    cases Symbol.specialVariable? d (c :: rest) <;>
      cases Symbol.operator? d (c :: rest) <;> rfl

/-- Nothing comes before whitespace. -/
theorem next_of_isSpace (h : Text.isSpace c = true) :
    next d before (c :: rest) = .accept .whitespace (Text.spaceRun (c :: rest)) := by
  simp [next, Recogniser.firstOf, forms, Symbol.whitespace?, h]

/-- Nothing but whitespace and literals comes before a line comment. -/
theorem next_of_hash (h : d.on .hashComments = true) :
    (next d before ('#' :: rest)).verdict = accept .lineComment := by
  have hSpace : Symbol.whitespace? ('#' :: rest) = none := Region.whitespace?_eq_none (by decide)
  have hLiteral : Literal.match? d ('#' :: rest) = none :=
    Literal.match?_eq_none (by decide) (by decide) rest
  obtain ⟨hOpen, hClose⟩ :=
    Placeholder.starts_of_ne (c := '#') (by decide) (by decide) rest
  simp [next, Recogniser.firstOf, forms, hSpace, Placeholder.match?, hOpen,
    Placeholder.unmatchedClose?, hClose, Region.apostrophe?, hLiteral, Comment.line?,
    Comment.startsLine, h]

end Lexeme

/-! ### The three roles -/

/-- Whether something else is read where a character stands that a valid dialect may use
in this role. -/
def CharRole.isTaken (d : Dialect) (c : Char) : CharRole → Bool
  | operator | specialVariable => c == '\uFEFF' || (c == '"' && d.on .doubleQuotedStrings)
  | identifierQuote =>
    c == '\uFEFF' || (c == '#' && d.on .hashComments) || (c == '$' && d.on .dollarQuotes)

/-- A character by itself that is neither taken nor a quote. -/
theorem Lexeme.next_singleton (hFree : Dialect.isReserved c = false)
    (hTaken : CharRole.operator.isTaken d c = false) (hQuote : c ∉ d.identifierQuotes)
    (hHash : d.on .hashComments = true → c ≠ '#') :
    next d none [c] = ((Symbol.specialVariable? d [c]).or (Symbol.operator? d [c])).getD
      (.reject .unexpectedCharacter 1) := by
  simp only [CharRole.isTaken, Bool.or_eq_false_iff, beq_eq_false_iff_ne,
    Bool.and_eq_false_imp, beq_iff_eq] at hTaken
  have hLiteral : Literal.match? d [c] = none := by
    rw [Literal.match?_of_free hFree, Literal.dollar?_singleton]
  have hLine : Comment.startsLine d [c] = false := by
    rw [Comment.startsLine_cons]
    by_cases hc : c = '#'
    · subst hc
      have hOff : d.on .hashComments = false := by
        rw [← Bool.not_eq_true]
        exact fun hOn => hHash hOn rfl
      simp [hOff]
    · simp [hc]
  have hIdentifier : Symbol.quotedIdentifier? d [c] = none := by
    simp [Symbol.quotedIdentifier?, Dialect.isIdentifierQuote, hQuote]
  rw [next_of_free hFree hTaken.1 hLiteral hLine rfl hTaken.2, hIdentifier, Option.none_or]

/-- A character by itself that is taken is whitespace or the start of a string. -/
theorem Lexeme.isTaken_of_next {kind : TokenKind} (hKind : kind ≠ .whitespace)
    (h : next d none [c] = .accept kind 1) : CharRole.operator.isTaken d c = false := by
  rw [← Bool.not_eq_true]
  intro hTaken
  simp only [CharRole.isTaken, Bool.or_eq_true, beq_iff_eq, Bool.and_eq_true] at hTaken
  rcases hTaken with rfl | ⟨rfl, hOn⟩
  · rw [next_of_isSpace (by decide)] at h
    exact hKind (congrArg Match.kind h).symm
  · rw [next_eq_late (by decide) (by decide) (by decide) rfl rfl] at h
    simp [Recogniser.firstOf, lateForms, Symbol.string?, hOn, Symbol.delimited, Quoted.length?,
      Quoted.closing?, Match.reject, Match.accept] at h

namespace Dialect.Valid

theorem next_operator_iff (hd : d.Valid) (hc : c ∈ d.operatorChars) :
    Lexeme.next d none [c] = .accept .operator 1 ↔ CharRole.operator.isTaken d c = false := by
  refine ⟨Lexeme.isTaken_of_next (by decide), fun hTaken => ?_⟩
  have hQuote : c ∉ d.identifierQuotes := fun hq => (hd.quote_disjoint c hq).1 hc
  have hHash : d.on .hashComments = true → c ≠ '#' := by
    rintro hOn rfl
    exact (hd.hash hOn).1 hc
  rw [Lexeme.next_singleton (hd.operator_free c hc) hTaken hQuote hHash]
  simp [Symbol.specialVariable?, isVariableChar, hd.operator_not_variable c hc,
    Symbol.operator?, isOperatorChar, hc, Symbol.operatorRun]

theorem next_variable_iff (hd : d.Valid) (hc : c ∈ d.variableChars) :
    Lexeme.next d none [c] = .accept .specialVariable 1 ↔
      CharRole.specialVariable.isTaken d c = false := by
  refine ⟨Lexeme.isTaken_of_next (by decide), fun hTaken => ?_⟩
  have hQuote : c ∉ d.identifierQuotes := fun hq => (hd.quote_disjoint c hq).2 hc
  have hHash : d.on .hashComments = true → c ≠ '#' := by
    rintro hOn rfl
    exact (hd.hash hOn).2 hc
  have hSigil : Symbol.sigilLength [c] = 1 := by simp [Symbol.sigilLength]
  rw [Lexeme.next_singleton (hd.variable_free c hc) hTaken hQuote hHash]
  simp [Symbol.specialVariable?, isVariableChar, hc, hSigil, Symbol.variableNameLength]

end Dialect.Valid

/-! ### Quoted words -/

theorem Text.isWordStart_of_isAlpha (h : c.isAlpha = true) : isWordStart c = true := by
  simp [isWordStart, isAlphabetic_of_isAlpha h]

section Quotes

variable {a q : Char} {w : Word} (hLetters : ∀ x ∈ a :: w, x.isAlpha = true)

include hLetters

/-- A word between dollars is the tag of a dollar quote. -/
theorem Literal.tagLength?_letters :
    tagLength? (a :: w ++ ['$']) = some (a :: w).length := by
  have hStart := Text.isWordStart_of_isAlpha (hLetters a List.mem_cons_self)
  have hWord : ∀ x ∈ a :: w, Text.isWordChar x = true := fun x hx =>
    Text.isWordChar_of_isWordStart (Text.isWordStart_of_isAlpha (hLetters x hx))
  have hRun : Text.wordRun (a :: w ++ ['$']) = (a :: w).length := by
    have hStop : Text.isWordChar '$' = false := by decide
    rw [Text.wordRun, List.takeWhile_append_of_pos hWord]
    simp [hStop]
  have hTag : a ≠ '$' := by
    rintro rfl
    revert hStart
    decide
  unfold tagLength?
  split
  · next hHead => exact absurd (List.cons.inj hHead).1 hTag
  · have hWhole : Text.startsWord (a :: w ++ ['$']) = true := hStart
    simp only [hRun, hWhole, List.drop_left]
    rfl

/-- The quoted word is one quoted identifier. -/
theorem Symbol.quotedIdentifier?_letters (hq : q ∈ d.identifierQuotes)
    (hAlpha : q.isAlpha = false) :
    quotedIdentifier? d (q :: (a :: w ++ [q])) =
      some (.accept .quotedIdentifier ((a :: w).length + 2)) := by
  have hBody : ∀ u : Word, (∀ x ∈ u, x.isAlpha = true) → Quoted.Body q false u := by
    intro u hu
    induction u with
    | nil => exact .nil
    | cons x u ih =>
      rw [List.forall_mem_cons] at hu
      refine .plain ?_ (fun hOn => by cases hOn) (ih hu.2)
      rintro rfl
      rw [hu.1] at hAlpha
      cases hAlpha
  exact quotedIdentifier?_body hq (hBody _ hLetters) (by simp)

theorem Dialect.Valid.next_quote_iff (hd : d.Valid) (hq : q ∈ d.identifierQuotes) :
    Lexeme.next d none (q :: (a :: w ++ [q])) =
        .accept .quotedIdentifier (q :: (a :: w ++ [q])).length ↔
      CharRole.identifierQuote.isTaken d q = false := by
  have hFree := hd.quote_free q hq
  constructor
  · intro h
    rw [← Bool.not_eq_true]
    intro hTaken
    simp only [CharRole.isTaken, Bool.or_eq_true, beq_iff_eq, Bool.and_eq_true] at hTaken
    rcases hTaken with (rfl | ⟨rfl, hOn⟩) | ⟨rfl, hOn⟩
    · rw [Lexeme.next_of_isSpace (by decide)] at h
      cases congrArg Match.kind h
    · have hVerdict := @Lexeme.next_of_hash d none (a :: w ++ ['#']) hOn
      rw [h] at hVerdict
      cases hVerdict
    · obtain ⟨m, hm⟩ : ∃ m, Literal.match? d ('$' :: (a :: w ++ ['$'])) = some m := by
        rw [Literal.match?_of_free hFree, Literal.dollar?, if_pos hOn,
          Literal.tagLength?_letters hLetters]
        exact ⟨_, rfl⟩
      have hVerdict := (Literal.match?_yields d _ m hm).2
      rw [Lexeme.next_of_literal hm] at h
      rw [h, Match.accept_verdict] at hVerdict
      exact absurd hVerdict (by decide)
  · intro hTaken
    simp only [CharRole.isTaken, Bool.or_eq_false_iff, beq_eq_false_iff_ne,
      Bool.and_eq_false_imp, beq_iff_eq] at hTaken
    obtain ⟨⟨hMark, hHash⟩, hDollar⟩ := hTaken
    have hLetter := hLetters a List.mem_cons_self
    have hLiteral : Literal.match? d (q :: (a :: w ++ [q])) = none := by
      rw [Literal.match?_of_free hFree, Literal.dollar?_of_ne hDollar]
    have hLine : Comment.startsLine d (q :: (a :: w ++ [q])) = false := by
      have hNe : a ≠ '-' ∧ a ≠ '/' := by
        refine ⟨?_, ?_⟩ <;>
          · rintro rfl
            cases hLetter
      rw [List.cons_append, Comment.startsLine_cons]
      by_cases hc : q = '#'
      · subst hc
        simp [hHash rfl]
      · simp [hc, hNe]
    have hBlock : Comment.startsBlock (q :: (a :: w ++ [q])) = false := by
      have hNe : a ≠ '*' := by
        rintro rfl
        cases hLetter
      simp [Comment.startsBlock, Brackets.startsWith, Brackets.comment, hNe]
    have hString : q = '"' → d.on .doubleQuotedStrings = false := by
      rintro rfl
      rw [← Bool.not_eq_true]
      exact fun hOn => hd.doubleQuote hOn hq
    have hAlpha : q.isAlpha = false := by
      rw [← Bool.not_eq_true]
      intro hAlpha
      rw [Dialect.isReserved_of_isAlpha hAlpha] at hFree
      cases hFree
    rw [Lexeme.next_of_free hFree hMark hLiteral hLine hBlock hString,
      Symbol.quotedIdentifier?_letters hLetters hq hAlpha]
    simp

end Quotes

/-- **Which characters of a valid dialect are read in their role.**  An operator
character by itself is one operator, the sigil of a special variable by itself is one
special variable, and a word of letters between two identifier quotes is one quoted
identifier, each exactly if its character is not taken. -/
theorem scan_charRole_iff (d : Dialect) (hd : d.Valid) :
    (∀ c ∈ d.operatorChars,
      d.ReadsAs [c] .operator ↔ CharRole.operator.isTaken d c = false) ∧
    (∀ c ∈ d.variableChars,
      d.ReadsAs [c] .specialVariable ↔ CharRole.specialVariable.isTaken d c = false) ∧
    ∀ q ∈ d.identifierQuotes, ∀ w : Word, w ≠ [] → (∀ a ∈ w, a.isAlpha = true) →
      (d.ReadsAs (q :: (w ++ [q])) .quotedIdentifier ↔
        CharRole.identifierQuote.isTaken d q = false) := by
  refine ⟨fun c hc => ?_, fun c hc => ?_, fun q hq w hw hLetters => ?_⟩
  · rw [Dialect.readsAs_iff (by simp) rfl (by decide)]
    exact hd.next_operator_iff hc
  · rw [Dialect.readsAs_iff (by simp) rfl (by decide)]
    exact hd.next_variable_iff hc
  · obtain ⟨a, v, rfl⟩ := List.exists_cons_of_ne_nil hw
    rw [Dialect.readsAs_iff (by simp) rfl (by decide)]
    exact hd.next_quote_iff hLetters hq

/-- One character of each role in a dialect with comments after `#` and strings between
double quotes. -/
theorem scan_charRole_iff_mysql :
    Preset.mysql.rules.ReadsAs ['-'] .operator ∧
      Preset.mysql.rules.ReadsAs ['@'] .specialVariable ∧
      Preset.mysql.rules.ReadsAs "\x60ab\x60".toList .quotedIdentifier := by
  have hLetters : ['a', 'b'].all Char.isAlpha = true := by decide
  obtain ⟨hOperator, hVariable, hQuote⟩ :=
    scan_charRole_iff Preset.mysql.rules (Preset.rules_valid .mysql)
  exact ⟨(hOperator '-' (by decide)).2 (by decide), (hVariable '@' (by decide)).2 (by decide),
    (hQuote '\x60' (by decide) ['a', 'b'] (by decide) (List.all_eq_true.1 hLetters)).2 (by decide)⟩

/-- A dialect with one character for each role. -/
def Dialect.taken : Dialect :=
  { Preset.mysql.rules with
    operatorChars := ['"']
    variableChars := ['\uFEFF']
    identifierQuotes := ['#'] }

/-- The dialect is valid and none of its characters is read in its role. -/
theorem scan_taken :
    Dialect.taken.Valid ∧ (Dialect.taken.scan ['"']).kinds = [.error] ∧
      (Dialect.taken.scan ['\uFEFF']).kinds = [.whitespace] ∧
      (Dialect.taken.scan "#ab#".toList).kinds = [.lineComment] := by
  have hRules := Preset.rules_valid .mysql
  have hValid : Dialect.taken.Valid :=
    { apostrophe := by decide
      doubleQuote := by decide
      operator_not_variable := List.forall_mem_singleton.2 (by decide)
      hash := by decide
      operator_free := List.forall_mem_singleton.2 (by decide +kernel)
      variable_free := List.forall_mem_singleton.2 (by decide +kernel)
      quote_free := List.forall_mem_singleton.2 (by decide +kernel)
      quote_disjoint := List.forall_mem_singleton.2 (by decide)
      keyword_word := hRules.keyword_word
      typeName_word := hRules.typeName_word }
  exact ⟨hValid, by decide +kernel, by decide +kernel, by decide +kernel⟩

end SqlTemplate
