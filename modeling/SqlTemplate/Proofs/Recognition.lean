import SqlTemplate.Proofs.Extent

/-!
# What recognisers answer

For each form of lexeme this file lists the verdicts that its recogniser can
give, and shows that a match is never longer than the text
(`Recogniser.Yields`).  `Lexeme.Form` names the forms, so that a fact about one
step of reading can be proved by going through them:

* `Lexeme.next_cases`: the lexeme at the head of a text is what some form
  recognises there, or one unexpected character.
* `Lexeme.next_le`, `Region.next_le`: one step of reading stays in the text.
* `Region.next_cases`: the four things that can stand at a place inside a
  quoted region, and what reading makes of them.
-/

namespace SqlTemplate

open Verdict (accept reject)

/-- Every match lies in the text and has one of these verdicts. -/
def Recogniser.Yields (verdicts : List Verdict) (r : Recogniser) : Prop :=
  ∀ text m, r text = some m → m.length ≤ text.length ∧ m.verdict ∈ verdicts

theorem Recogniser.firstOf_yields {verdicts : List Verdict} {forms : List Recogniser}
    (h : ∀ r ∈ forms, Yields verdicts r) : Yields verdicts (firstOf forms) := by
  intro text m hm
  obtain ⟨r, hMem, hr⟩ := List.exists_of_findSome?_eq_some hm
  exact h r hMem text m hr

/-! ### Placeholders -/

namespace Placeholder

def verdicts : List Verdict :=
  [accept .placeholder, reject .nestedPlaceholder, reject .missingExpression,
   reject .unterminatedString, reject .expectedPlaceholderClose, reject .unterminatedPlaceholder]

theorem expression_fault {d : Dialect} {text : List Char} {fault : Fault}
    (h : expression d text = .error fault) :
    fault = .missingExpression ∨ fault = .unterminatedString := by
  unfold expression at h
  split at h
  · cases h
    exact Or.inl rfl
  · split at h
    · split at h
      · simp at h
      · cases h
        exact Or.inr rfl
    · split at h
      · simp at h
      · split at h
        · simp at h
        · cases h
          exact Or.inl rfl

theorem recover_verdict (text : List Char) (start : Nat) (fault unclosed : Fault) :
    (recover text start fault unclosed).verdict = reject fault ∨
      (recover text start fault unclosed).verdict = reject unclosed := by
  unfold recover
  split
  · exact Or.inl rfl
  · exact Or.inr rfl

theorem recoverNested_verdict (text : List Char) (start : Nat) :
    (recoverNested text start).verdict = reject .nestedPlaceholder := by
  unfold recoverNested
  split <;> rfl

theorem scan_verdict (d : Dialect) (text : List Char) : (scan d text).verdict ∈ verdicts := by
  rw [scan_eq]
  split
  · rw [recoverNested_verdict]
    decide
  · split
    · next fault hFault =>
      rcases recover_verdict text (expressionStart text) fault fault with h | h <;>
        rw [h] <;> rcases expression_fault hFault with rfl | rfl <;> decide
    · next n hn =>
      split
      · exact List.mem_cons_self
      · rcases recover_verdict text (closeStart text n) .expectedPlaceholderClose
          .unterminatedPlaceholder with h | h <;> rw [h] <;> decide

theorem match?_yields (d : Dialect) : Recogniser.Yields verdicts (match? d) := by
  intro text m h
  simp only [match?, Option.ite_none_right_eq_some, Option.some.injEq] at h
  obtain ⟨hOpen, rfl⟩ := h
  exact ⟨scan_le d (Brackets.two_le_of_startsWith hOpen), scan_verdict d text⟩

theorem unmatchedClose?_yields :
    Recogniser.Yields [reject .unmatchedPlaceholderClose] unmatchedClose? := by
  intro text m h
  simp only [unmatchedClose?, Option.ite_none_right_eq_some, Option.some.injEq] at h
  obtain ⟨hClose, rfl⟩ := h
  exact ⟨Brackets.two_le_of_startsWith hClose, List.mem_cons_self⟩

end Placeholder

/-! ### Comments -/

namespace Comment

theorem line?_yields (d : Dialect) : Recogniser.Yields [accept .lineComment] (line? d) := by
  intro text m h
  simp only [line?, Option.ite_none_right_eq_some, Option.some.injEq] at h
  obtain ⟨_, rfl⟩ := h
  exact ⟨Text.length_takeWhile_le _ _, List.mem_cons_self⟩

theorem block?_yields :
    Recogniser.Yields [accept .blockComment, reject .unterminatedBlockComment] block? := by
  intro text m h
  simp only [block?, Option.ite_none_right_eq_some] at h
  obtain ⟨hStart, h⟩ := h
  have hTwo := Brackets.two_le_of_startsWith hStart
  split at h
  · next n hn =>
    cases h
    have hClose := Brackets.close?_le hn
    rw [List.length_drop] at hClose
    refine ⟨?_, by simp⟩
    simp only [Match.accept_length]
    omega
  · cases h
    exact ⟨Nat.le_refl _, by simp⟩

end Comment

/-! ### Literals with an introducer -/

namespace Literal

def verdicts : List Verdict :=
  [accept .bits, accept .bytes, accept .number, accept .string, reject .unterminatedString,
   reject .unterminatedDollarString, reject .malformedBits, reject .malformedHex]

theorem digits?_yields {kind : TokenKind} {isDigit : Char → Bool} {rest : List Char} {m : Match}
    (h : digits? kind isDigit rest = some m) :
    m.length ≤ rest.length + 2 ∧ m.verdict = accept kind := by
  simp only [digits?, Option.ite_none_right_eq_some, Option.some.injEq] at h
  obtain ⟨_, rfl⟩ := h
  have hRun := Text.length_takeWhile_le isDigit rest
  refine ⟨?_, rfl⟩
  simp only [Match.accept_length]
  omega

theorem radix?_yields : Recogniser.Yields verdicts radix? := by
  intro text m h
  unfold radix? at h
  split at h
  · split at h
    · obtain ⟨hLe, hVerdict⟩ := digits?_yields h
      exact ⟨hLe, by rw [hVerdict]; decide⟩
    · split at h
      · obtain ⟨hLe, hVerdict⟩ := digits?_yields h
        exact ⟨hLe, by rw [hVerdict]; decide⟩
      · simp at h
  · simp at h

theorem bits_verdict (d : Dialect) (quote : Char) (text : List Char) :
    (bits d quote text).verdict ∈ verdicts := by
  unfold bits
  split
  · simp [verdicts]
  · split
    · simp [verdicts]
    · split <;> simp [verdicts]

theorem hex_verdict (text : List Char) : (hex text).verdict ∈ verdicts := by
  unfold hex
  split
  · simp [verdicts]
  · split <;> simp [verdicts]

theorem introduced_verdict (introducer : Nat) (escapes : Bool) (text : List Char) :
    (introduced introducer escapes text).verdict ∈ verdicts := by
  unfold introduced
  split <;> simp [verdicts]

theorem dollar_verdict (width : Nat) (text : List Char) :
    (dollar width text).verdict ∈ verdicts := by
  unfold dollar
  split <;> simp [verdicts]

theorem bits?_yields (d : Dialect) : Recogniser.Yields verdicts (bits? d) := by
  intro text m h
  unfold bits? at h
  split at h
  · simp only [Option.ite_none_right_eq_some, Option.some.injEq] at h
    obtain ⟨_, rfl⟩ := h
    exact ⟨bits_le d _ _, bits_verdict d _ _⟩
  · simp at h

theorem hex?_yields : Recogniser.Yields verdicts hex? := by
  intro text m h
  unfold hex? at h
  split at h
  · simp only [Option.ite_none_right_eq_some, Option.some.injEq] at h
    obtain ⟨_, rfl⟩ := h
    exact ⟨hex_le _, hex_verdict _⟩
  · simp at h

theorem escape?_yields : Recogniser.Yields verdicts escape? := by
  intro text m h
  unfold escape? at h
  split at h
  · simp only [Option.ite_none_right_eq_some, Option.some.injEq] at h
    obtain ⟨_, rfl⟩ := h
    exact ⟨introduced_le (by simp), introduced_verdict _ _ _⟩
  · simp at h

theorem national?_yields (d : Dialect) : Recogniser.Yields verdicts (national? d) := by
  intro text m h
  unfold national? at h
  split at h
  · simp only [Option.ite_none_right_eq_some, Option.some.injEq] at h
    obtain ⟨_, rfl⟩ := h
    exact ⟨introduced_le (by simp), introduced_verdict _ _ _⟩
  · simp at h

theorem charset?_yields (d : Dialect) : Recogniser.Yields verdicts (charset? d) := by
  intro text m h
  unfold charset? at h
  split at h
  · next rest =>
    simp only [Option.ite_none_right_eq_some, Option.some.injEq] at h
    obtain ⟨_, rfl⟩ := h
    have hName := Text.length_takeWhile_le Char.isAlphanum rest
    exact ⟨introduced_le (by rw [List.length_cons]; omega), introduced_verdict _ _ _⟩
  · simp at h

theorem dollar?_yields (d : Dialect) : Recogniser.Yields verdicts (dollar? d) := by
  intro text m h
  unfold dollar? at h
  split at h
  · simp only [Option.ite_none_right_eq_some, Option.map_eq_some_iff] at h
    obtain ⟨_, tag, hTag, rfl⟩ := h
    have hWidth := tagLength?_lt hTag
    exact ⟨dollar_le (by rw [List.length_cons]; omega), dollar_verdict _ _⟩
  · simp at h

theorem match?_yields (d : Dialect) : Recogniser.Yields verdicts (match? d) := by
  apply Recogniser.firstOf_yields
  simp only [forms, List.forall_mem_cons, List.not_mem_nil, false_imp_iff, implies_true, and_true]
  exact ⟨radix?_yields, bits?_yields d, hex?_yields, escape?_yields, national?_yields d,
    charset?_yields d, dollar?_yields d⟩

end Literal

/-! ### Plain lexemes -/

namespace Symbol

theorem whitespace?_yields : Recogniser.Yields [accept .whitespace] whitespace? := by
  intro text m h
  unfold whitespace? at h
  split at h
  · simp at h
  · simp only [Option.ite_none_right_eq_some, Option.some.injEq] at h
    obtain ⟨_, rfl⟩ := h
    exact ⟨Text.spaceRun_le _, List.mem_cons_self⟩

theorem delimited_verdict (quote : Char) (escapes : Bool) (kind : TokenKind) (unclosed : Fault)
    (text : List Char) :
    (delimited quote escapes kind unclosed text).verdict ∈ [accept kind, reject unclosed] := by
  unfold delimited
  split <;> simp

theorem string?_yields (d : Dialect) :
    Recogniser.Yields [accept .string, reject .unterminatedString] (string? d) := by
  intro text m h
  unfold string? at h
  split at h
  · simp at h
  · simp only [Option.ite_none_right_eq_some, Option.some.injEq] at h
    obtain ⟨_, rfl⟩ := h
    exact ⟨delimited_le _ _ _ _ _, delimited_verdict _ _ _ _ _⟩

theorem quotedIdentifier?_yields (d : Dialect) :
    Recogniser.Yields [accept .quotedIdentifier, reject .unterminatedQuotedIdentifier]
      (quotedIdentifier? d) := by
  intro text m h
  unfold quotedIdentifier? at h
  split at h
  · simp at h
  · simp only [Option.ite_none_right_eq_some, Option.some.injEq] at h
    obtain ⟨_, rfl⟩ := h
    exact ⟨delimited_le _ _ _ _ _, delimited_verdict _ _ _ _ _⟩

theorem number?_yields (before : Option TokenKind) :
    Recogniser.Yields [accept .number] (number? before) := by
  intro text m h
  simp only [number?, Option.ite_none_right_eq_some, Option.some.injEq] at h
  obtain ⟨_, rfl⟩ := h
  exact ⟨Number.length_le _, List.mem_cons_self⟩

theorem specialVariable?_yields (d : Dialect) :
    Recogniser.Yields [accept .specialVariable] (specialVariable? d) := by
  intro text m h
  unfold specialVariable? at h
  split at h
  · simp at h
  · next c rest =>
    simp only [Option.ite_none_right_eq_some, Option.some.injEq] at h
    obtain ⟨_, rfl⟩ := h
    have hSigils := sigilLength_le (List.cons_ne_nil c rest)
    have hName := variableNameLength_le ((c :: rest).drop (sigilLength (c :: rest)))
    rw [List.length_drop] at hName
    refine ⟨?_, List.mem_cons_self⟩
    simp only [Match.accept_length]
    omega

def punctuationVerdicts : List Verdict :=
  [accept .dot, accept .semicolon, accept .comma, accept .paren, accept .bracket, accept .brace]

theorem punctuationKind?_mem {c : Char} {kind : TokenKind} (h : punctuationKind? c = some kind) :
    accept kind ∈ punctuationVerdicts := by
  unfold punctuationKind? at h
  split at h
  · cases h; decide
  · split at h
    · cases h; decide
    · split at h
      · cases h; decide
      · split at h
        · cases h; decide
        · split at h
          · cases h; decide
          · split at h
            · cases h; decide
            · simp at h

theorem punctuation?_yields : Recogniser.Yields punctuationVerdicts punctuation? := by
  intro text m h
  unfold punctuation? at h
  split at h
  · simp at h
  · obtain ⟨kind, hKind, rfl⟩ := Option.map_eq_some_iff.1 h
    exact ⟨by simp, punctuationKind?_mem hKind⟩

theorem operator?_yields (d : Dialect) : Recogniser.Yields [accept .operator] (operator? d) := by
  intro text m h
  unfold operator? at h
  split at h
  · simp at h
  · next c rest =>
    simp only [Option.ite_none_right_eq_some, Option.some.injEq] at h
    obtain ⟨_, rfl⟩ := h
    have hRun := operatorRun_le d rest
    refine ⟨?_, List.mem_cons_self⟩
    simp only [Match.accept_length, List.length_cons]
    omega

def wordVerdicts : List Verdict := [accept .keyword, accept .typeName, accept .identifier]

theorem wordKindAt_mem (d : Dialect) (before : Option TokenKind) (text : List Char) :
    accept (wordKindAt d before text) ∈ wordVerdicts := by
  unfold wordKindAt
  split
  · decide
  · unfold Dialect.wordKind
    split
    · decide
    · split <;> decide

theorem word?_yields (d : Dialect) (before : Option TokenKind) :
    Recogniser.Yields wordVerdicts (word? d before) := by
  intro text m h
  unfold word? at h
  split at h
  · simp at h
  · simp only [Option.ite_none_right_eq_some, Option.some.injEq] at h
    obtain ⟨_, rfl⟩ := h
    exact ⟨Text.wordRun_le _, wordKindAt_mem d before _⟩

end Symbol

namespace Region

theorem apostrophe?_yields (d : Dialect) :
    Recogniser.Yields [accept .string, reject .unterminatedString, accept .regionQuote]
      (apostrophe? d) := by
  intro text m h
  unfold apostrophe? at h
  split at h
  · next rest =>
    split at h
    · next n hn =>
      cases h
      have hString := QuotePlan.ofText_le hn
      refine ⟨?_, by simp⟩
      simp only [Match.accept_length, List.length_cons]
      omega
    · cases h
      exact ⟨Nat.le_refl _, by simp⟩
    · cases h
      exact ⟨by simp, by simp⟩
  · simp at h

theorem next_of_isSpace (d : Dialect) (count : Nat) {c : Char} {rest : List Char}
    (h : Text.isSpace c = true) :
    next d count (c :: rest) = .accept .whitespace (Text.spaceRun (c :: rest)) := by
  simp [next, Recogniser.firstOf, Symbol.whitespace?, h]

theorem whitespace?_eq_none {c : Char} {rest : List Char} (h : Text.isSpace c = false) :
    Symbol.whitespace? (c :: rest) = none := by
  simp [Symbol.whitespace?, h]

theorem next_of_startsOpen (d : Dialect) (count : Nat) {text : List Char}
    (h : Placeholder.startsOpen text = true) :
    next d count text = judged count (Placeholder.scan d text) := by
  cases text with
  | nil => simp [Placeholder.startsOpen, Brackets.startsWith] at h
  | cons c rest =>
    have hSpace : Text.isSpace c = false := by
      cases rest with
      | nil => simp [Placeholder.startsOpen, Brackets.startsWith] at h
      | cons b rest =>
        simp only [Placeholder.startsOpen, Brackets.startsWith, Brackets.placeholder,
          Bool.and_eq_true, beq_iff_eq] at h
        rw [h.1]
        decide
    simp [next, Recogniser.firstOf, whitespace?_eq_none hSpace, placeholder?, Placeholder.match?,
      h]

theorem startsOpen_apostrophe (rest : List Char) :
    Placeholder.startsOpen ('\'' :: rest) = false := by
  cases rest <;> rfl

theorem next_of_close (d : Dialect) {count : Nat} {rest : List Char}
    (h : count = 0 → rest.head? ≠ some '\'') :
    next d count ('\'' :: rest) = .accept .regionQuote 1 := by
  have hSpace : Symbol.whitespace? ('\'' :: rest) = none := whitespace?_eq_none (by decide)
  have hClose : close? count ('\'' :: rest) = some (.accept .regionQuote 1) := by
    simp only [close?, Option.ite_none_left_eq_some, and_true, Bool.and_eq_true, beq_iff_eq]
    rintro ⟨hCount, hHead⟩
    exact h hCount hHead
  simp [next, Recogniser.firstOf, hSpace, placeholder?, Placeholder.match?,
    startsOpen_apostrophe, hClose]

theorem next_of_content (d : Dialect) {count : Nat} {c : Char} {rest : List Char}
    (hSpace : Text.isSpace c = false) (hOpen : Placeholder.startsOpen (c :: rest) = false)
    (hQuote : c = '\'' → count = 0 ∧ rest.head? = some '\'') :
    next d count (c :: rest) =
      .reject .unexpectedRegionText
        (contentLength (d.on .backslashEscapes) count (c :: rest)) := by
  have hClose : close? count (c :: rest) = none := by
    unfold close?
    split
    · next hEq =>
      cases hEq
      simp [hQuote rfl]
    · rfl
  simp [next, Recogniser.firstOf, whitespace?_eq_none hSpace, placeholder?, Placeholder.match?,
    hOpen, hClose]

/-- **What stands at a place inside a quoted region**: whitespace, a
placeholder, the closing quote, or other text. -/
theorem next_cases (d : Dialect) (count : Nat) (c : Char) (rest : List Char) :
    (Text.isSpace c = true ∧
        next d count (c :: rest) = .accept .whitespace (Text.spaceRun (c :: rest))) ∨
      (Placeholder.startsOpen (c :: rest) = true ∧
        next d count (c :: rest) = judged count (Placeholder.scan d (c :: rest))) ∨
      (c = '\'' ∧ (count = 0 → rest.head? ≠ some '\'') ∧
        next d count (c :: rest) = .accept .regionQuote 1) ∨
      (Text.isSpace c = false ∧ Placeholder.startsOpen (c :: rest) = false ∧
        (c = '\'' → count = 0 ∧ rest.head? = some '\'') ∧
        next d count (c :: rest) =
          .reject .unexpectedRegionText
            (contentLength (d.on .backslashEscapes) count (c :: rest))) := by
  by_cases hSpace : Text.isSpace c = true
  · exact Or.inl ⟨hSpace, next_of_isSpace d count hSpace⟩
  · rw [Bool.not_eq_true] at hSpace
    by_cases hOpen : Placeholder.startsOpen (c :: rest) = true
    · exact Or.inr (Or.inl ⟨hOpen, next_of_startsOpen d count hOpen⟩)
    · rw [Bool.not_eq_true] at hOpen
      by_cases hClose : c = '\'' ∧ (count = 0 → rest.head? ≠ some '\'')
      · obtain ⟨rfl, hHead⟩ := hClose
        exact Or.inr (Or.inr (Or.inl ⟨rfl, hHead, next_of_close d hHead⟩))
      · have hQuote : c = '\'' → count = 0 ∧ rest.head? = some '\'' := by
          intro hc
          by_cases hDouble : count = 0 ∧ rest.head? = some '\''
          · exact hDouble
          · exact absurd ⟨hc, fun hCount hHead => hDouble ⟨hCount, hHead⟩⟩ hClose
        exact Or.inr (Or.inr (Or.inr ⟨hSpace, hOpen, hQuote,
          next_of_content d hSpace hOpen hQuote⟩))

/-- The verdicts that a text inside a quoted region can get. -/
def verdicts : List Verdict :=
  accept .whitespace :: accept .regionQuote :: reject .secondPlaceholder ::
    reject .unexpectedRegionText :: Placeholder.verdicts

theorem judged_verdict (count : Nat) (m : Match) :
    (judged count m).verdict = m.verdict ∨
      (judged count m).verdict = reject .secondPlaceholder := by
  unfold judged
  split
  · exact Or.inr rfl
  · exact Or.inl rfl

theorem next_verdict (d : Dialect) (count : Nat) (c : Char) (rest : List Char) :
    (next d count (c :: rest)).verdict ∈ verdicts := by
  rcases next_cases d count c rest with
    ⟨_, hNext⟩ | ⟨_, hNext⟩ | ⟨_, _, hNext⟩ | ⟨_, _, _, hNext⟩
  · rw [hNext, Match.accept_verdict]
    decide
  · rw [hNext]
    rcases judged_verdict count (Placeholder.scan d (c :: rest)) with hSame | hSecond
    · rw [hSame]
      have hScan := Placeholder.scan_verdict d (c :: rest)
      simp only [verdicts, List.mem_cons, hScan, or_true]
    · rw [hSecond]
      decide
  · rw [hNext, Match.accept_verdict]
    decide
  · rw [hNext, Match.reject_verdict]
    decide

/-- A quoted region is closed only by an apostrophe. -/
theorem next_eq_regionQuote {d : Dialect} {count : Nat} {c : Char} {rest : List Char}
    (h : (next d count (c :: rest)).verdict = accept .regionQuote) :
    c = '\'' ∧ (count = 0 → rest.head? ≠ some '\'') := by
  rcases next_cases d count c rest with
    ⟨_, hNext⟩ | ⟨_, hNext⟩ | ⟨hQuote, hHead, _⟩ | ⟨_, _, _, hNext⟩
  · rw [hNext] at h
    cases h
  · rw [hNext] at h
    have hScan := Placeholder.scan_verdict d (c :: rest)
    rcases judged_verdict count (Placeholder.scan d (c :: rest)) with hSame | hSecond
    · rw [← hSame, h] at hScan
      exact absurd hScan (by decide)
    · rw [hSecond] at h
      cases h
  · exact ⟨hQuote, hHead⟩
  · rw [hNext] at h
    cases h

/-- **One step inside a quoted region stays in the text.** -/
theorem next_le (d : Dialect) (count : Nat) (c : Char) (rest : List Char) :
    (next d count (c :: rest)).length ≤ (c :: rest).length := by
  rcases next_cases d count c rest with
    ⟨_, hNext⟩ | ⟨hOpen, hNext⟩ | ⟨_, _, hNext⟩ | ⟨_, _, _, hNext⟩
  · rw [hNext]
    exact Text.spaceRun_le _
  · rw [hNext, judged_length]
    exact Placeholder.scan_le d (Brackets.two_le_of_startsWith hOpen)
  · rw [hNext]
    simp
  · rw [hNext]
    exact contentLength_le _ _ _

end Region

/-! ### The forms of lexemes -/

namespace Lexeme

/-- A form of lexeme outside quoted regions. -/
inductive Form where
  | whitespace
  | placeholder
  | unmatchedClose
  | apostrophe
  | literal
  | lineComment
  | blockComment
  | doubleQuoted
  | quotedIdentifier
  | number
  | specialVariable
  | punctuation
  | operator
  | word
deriving DecidableEq, Repr

namespace Form

/-- The forms in the order in which they are tried. -/
def all : List Form :=
  [whitespace, placeholder, unmatchedClose, apostrophe, literal, lineComment, blockComment,
   doubleQuoted, quotedIdentifier, number, specialVariable, punctuation, operator, word]

/-- What looks for the form. -/
def recogniser (d : Dialect) (before : Option TokenKind) : Form → Recogniser
  | whitespace => Symbol.whitespace?
  | placeholder => Placeholder.match? d
  | unmatchedClose => Placeholder.unmatchedClose?
  | apostrophe => Region.apostrophe? d
  | literal => Literal.match? d
  | lineComment => Comment.line? d
  | blockComment => Comment.block?
  | doubleQuoted => Symbol.string? d
  | quotedIdentifier => Symbol.quotedIdentifier? d
  | number => Symbol.number? before
  | specialVariable => Symbol.specialVariable? d
  | punctuation => Symbol.punctuation?
  | operator => Symbol.operator? d
  | word => Symbol.word? d before

/-- The verdicts that a text of the form can get. -/
def verdicts : Form → List Verdict
  | whitespace => [accept .whitespace]
  | placeholder => Placeholder.verdicts
  | unmatchedClose => [reject .unmatchedPlaceholderClose]
  | apostrophe => [accept .string, reject .unterminatedString, accept .regionQuote]
  | literal => Literal.verdicts
  | lineComment => [accept .lineComment]
  | blockComment => [accept .blockComment, reject .unterminatedBlockComment]
  | doubleQuoted => [accept .string, reject .unterminatedString]
  | quotedIdentifier => [accept .quotedIdentifier, reject .unterminatedQuotedIdentifier]
  | number => [accept .number]
  | specialVariable => [accept .specialVariable]
  | punctuation => Symbol.punctuationVerdicts
  | operator => [accept .operator]
  | word => Symbol.wordVerdicts

theorem forms_eq (d : Dialect) (before : Option TokenKind) :
    forms d before = all.map (recogniser d before) := rfl

theorem recogniser_yields (d : Dialect) (before : Option TokenKind) (f : Form) :
    Recogniser.Yields f.verdicts (f.recogniser d before) := by
  cases f with
  | whitespace => exact Symbol.whitespace?_yields
  | placeholder => exact Placeholder.match?_yields d
  | unmatchedClose => exact Placeholder.unmatchedClose?_yields
  | apostrophe => exact Region.apostrophe?_yields d
  | literal => exact Literal.match?_yields d
  | lineComment => exact Comment.line?_yields d
  | blockComment => exact Comment.block?_yields
  | doubleQuoted => exact Symbol.string?_yields d
  | quotedIdentifier => exact Symbol.quotedIdentifier?_yields d
  | number => exact Symbol.number?_yields before
  | specialVariable => exact Symbol.specialVariable?_yields d
  | punctuation => exact Symbol.punctuation?_yields
  | operator => exact Symbol.operator?_yields d
  | word => exact Symbol.word?_yields d before

end Form

/-- **What stands at the head of a text**: a text of some form, or a character
that starts none. -/
theorem next_cases (d : Dialect) (before : Option TokenKind) (text : List Char) :
    (∃ f : Form, f.recogniser d before text = some (next d before text) ∧
        (next d before text).verdict ∈ f.verdicts) ∨
      next d before text = .reject .unexpectedCharacter 1 := by
  cases h : Recogniser.firstOf (forms d before) text with
  | none =>
    right
    rw [next, h, Option.getD_none]
  | some m =>
    left
    obtain ⟨r, hMem, hr⟩ := List.exists_of_findSome?_eq_some h
    rw [Form.forms_eq] at hMem
    obtain ⟨f, _, rfl⟩ := List.mem_map.1 hMem
    rw [next, h, Option.getD_some]
    exact ⟨f, hr, (f.recogniser_yields d before text m hr).2⟩

/-- **One step outside quoted regions stays in the text.** -/
theorem next_le (d : Dialect) (before : Option TokenKind) {text : List Char} (h : text ≠ []) :
    (next d before text).length ≤ text.length := by
  rcases next_cases d before text with ⟨f, hf, _⟩ | hNext
  · exact (f.recogniser_yields d before text _ hf).1
  · rw [hNext]
    exact List.length_pos_iff.2 h

end Lexeme

end SqlTemplate
