import SqlTemplate.Proofs.Presets
import SqlTemplate.Proofs.Reading

/-!
# Lexemes by themselves

The text of a token, taken out of its source, is read as the same token.  What
stood after it is cut off, which is one of the exchanges of `Exchange.lean`, and
what stood before it matters only in two ways: a dot and a digit are no number
after a name, and a word after a dot is a name.

* `Lexeme.firstOf_early`: no form but the last one, which is that of words,
  depends on the token before, except where a dot is read.
* `Lexeme.next_alone`: one step gives the same lexeme in the text cut off after it.
* `scan_alone`: so the text of a token is read as that token.
-/

namespace SqlTemplate

open Verdict (accept reject)

variable {d : Dialect}

namespace Lexeme

namespace Form

/-- The forms before that of words. -/
def early : List Form := all.take 13

end Form

theorem next_eq_or (d : Dialect) (before : Option TokenKind) (text : List Char) :
    next d before text =
      ((Recogniser.firstOf (Form.early.map (Form.recogniser d before)) text).or
        (Symbol.word? d before text)).getD (.reject .unexpectedCharacter 1) := by
  have hForms : forms d before =
      Form.early.map (Form.recogniser d before) ++ [Symbol.word? d before] := rfl
  rw [next, hForms, Recogniser.firstOf, List.findSome?_append, List.findSome?_singleton]
  rfl

/-- A dot after a name is a dot, also where a digit follows it. -/
theorem next_of_fraction (hd : d.Valid) {before : Option TokenKind} {text : List Char}
    (hBefore : before.any (·.isNamePart) = true) (h : Number.startsFraction text = true) :
    next d before text = .accept .dot 1 := by
  unfold Number.startsFraction at h
  split at h
  · next rest =>
    have hOpen : Placeholder.startsOpen ('.' :: rest) = false := by cases rest <;> rfl
    have hClose : Placeholder.startsClose ('.' :: rest) = false := by cases rest <;> rfl
    refine next_of_mark hd rfl hOpen hClose ?_
    rw [Symbol.number?, hBefore]
    simp [Number.startsDigit]
  · cases h

/-- **Where no dot is read, the forms before that of words do not depend on the
token before.** -/
theorem firstOf_early (hd : d.Valid) {before : Option TokenKind} {text : List Char}
    (h : next d before text ≠ .accept .dot 1) :
    Recogniser.firstOf (Form.early.map (Form.recogniser d before)) text =
      Recogniser.firstOf (Form.early.map (Form.recogniser d none)) text := by
  have hNumber : Symbol.number? before text = Symbol.number? none text := by
    cases hFraction : Number.startsFraction text with
    | false => simp [Symbol.number?, hFraction]
    | true =>
      cases hBefore : before.any (·.isNamePart) with
      | true => exact absurd (next_of_fraction hd hBefore hFraction) h
      | false =>
        rw [Symbol.number?, hBefore]
        rfl
  have hList : ∀ kind, Form.early.map (Form.recogniser d kind) =
      (Form.early.take 9).map (Form.recogniser d none) ++ Symbol.number? kind ::
        (Form.early.drop 10).map (Form.recogniser d none) := fun _ => rfl
  rw [hList before, hList none, Recogniser.firstOf, Recogniser.firstOf, List.findSome?_append,
    List.findSome?_append, List.findSome?_cons, List.findSome?_cons, hNumber]

/-- Two dashes that are neither an operator nor a quoted identifier start a line
comment, and they do so by themselves. -/
theorem next_dashes {before : Option TokenKind} {rest : List Char} {kind : TokenKind}
    (h : next d before ('-' :: '-' :: rest) = .accept kind 2) (hOperator : kind ≠ .operator)
    (hIdentifier : kind ≠ .quotedIdentifier) :
    kind = .lineComment ∧ next d none ['-', '-'] = .accept .lineComment 2 := by
  have hLiteral : ∀ rest, Literal.match? d ('-' :: rest) = none :=
    Literal.match?_eq_none (by decide) (by decide)
  refine ⟨?_, ?_⟩
  · rcases next_cases d before ('-' :: '-' :: rest) with ⟨f, hf, hVerdict⟩ | hNext
    · rw [h, Match.accept_verdict] at hVerdict
      rw [h] at hf
      cases f with
      | lineComment =>
        rw [Form.verdicts, List.mem_singleton, Verdict.accept.injEq] at hVerdict
        exact hVerdict
      | quotedIdentifier =>
        simp only [Form.verdicts, List.mem_cons, Verdict.accept.injEq, reduceCtorEq,
          List.not_mem_nil, or_false] at hVerdict
        exact absurd hVerdict hIdentifier
      | operator =>
        rw [Form.verdicts, List.mem_singleton, Verdict.accept.injEq] at hVerdict
        exact absurd hVerdict hOperator
      | specialVariable =>
        -- a dash is one sigil, and the second dash is no name
        simp only [Form.recogniser, Symbol.specialVariable?, Option.ite_none_right_eq_some,
          Option.some.injEq] at hf
        have hLength := congrArg Match.length hf.2
        have hName : Text.wordRun ('-' :: rest) = 0 := by
          have hDash : Text.isWordChar '-' = false := by decide +kernel
          simp [Text.wordRun, hDash]
        simp [Symbol.sigilLength_cons, Symbol.variableNameLength, hName] at hLength
      | literal =>
        rw [Form.recogniser, hLiteral] at hf
        cases hf
      | word =>
        have hDash : Text.isWordStart '-' = false := by decide +kernel
        simp [Form.recogniser, Symbol.word?, hDash] at hf
      | whitespace => cases hf
      | placeholder => cases hf
      | unmatchedClose => cases hf
      | apostrophe => cases hf
      | blockComment => cases hf
      | doubleQuoted => cases hf
      | number => cases hf
      | punctuation => cases hf
    · rw [hNext] at h
      cases congrArg Match.verdict h
  · have hLine : Comment.startsLine d ['-', '-'] = true := by
      simp [Comment.startsLine, Comment.startsSpace]
    have hSpace : Symbol.whitespace? ['-', '-'] = none := Region.whitespace?_eq_none (by decide)
    simp [next, Recogniser.firstOf, forms, hSpace, hLiteral, Comment.line?, hLine,
      Placeholder.match?, Placeholder.startsOpen, Placeholder.unmatchedClose?,
      Placeholder.startsClose, Brackets.startsWith, Brackets.placeholder, Region.apostrophe?]

/-- The kind of a lexeme that stands by itself: no dot makes a name of a word. -/
def kindAlone (d : Dialect) (kind : TokenKind) (text : List Char) : TokenKind :=
  if kind = .identifier then d.wordKind text else kind

theorem wordKindAt_of_whole {text : List Char} (h : Text.wordRun text = text.length) :
    Symbol.wordKindAt d none text = d.wordKind text := by
  rw [Symbol.wordKindAt, h, List.drop_length, List.take_length]
  rfl

/-- A word by itself. -/
theorem word?_alone {before : Option TokenKind} {u rest : List Char} {kind : TokenKind}
    (hu : u ≠ []) (h : Symbol.word? d before (u ++ rest) = some (.accept kind u.length)) :
    Symbol.word? d none u = some (.accept (kindAlone d kind u) u.length) := by
  obtain ⟨c, v, rfl⟩ := List.exists_cons_of_ne_nil hu
  simp only [List.cons_append, Symbol.word?, Option.ite_none_right_eq_some,
    Option.some.injEq] at h
  obtain ⟨hStart, hMatch⟩ := h
  have hRun : Text.wordRun (c :: v ++ rest) = (c :: v).length := congrArg Match.length hMatch
  have hKind : Symbol.wordKindAt d before (c :: v ++ rest) = kind := congrArg Match.kind hMatch
  have hAlone : Text.wordRun (c :: v) = (c :: v).length := by
    rw [Text.wordRun, List.takeWhile_append] at hRun
    split at hRun
    · next hAll => exact hAll
    · exact hRun
  have hWord : d.wordKind (c :: v) = kindAlone d kind (c :: v) := by
    unfold kindAlone
    split
    · rfl
    · next hOther =>
      rw [Symbol.wordKindAt, hRun, List.take_left] at hKind
      split at hKind
      · exact absurd hKind.symm hOther
      · exact hKind
  rw [Symbol.word?, if_pos hStart, wordKindAt_of_whole hAlone, hAlone, hWord]

/-- **A lexeme is read the same way by itself.** -/
theorem next_alone (hd : d.Valid) {before : Option TokenKind} {u rest : List Char}
    {kind : TokenKind} (hu : u ≠ []) (h : next d before (u ++ rest) = .accept kind u.length)
    (hQuote : kind ≠ .regionQuote) (hDot : kind ≠ .dot)
    (hDashes : kind = .operator ∨ kind = .quotedIdentifier → ¬['-', '-'] <:+ u) :
    next d none u = .accept (kindAlone d kind u) u.length := by
  by_cases hLine : u = ['-', '-']
  · subst hLine
    obtain ⟨rfl, hNext⟩ := next_dashes h
      (fun hKind => hDashes (Or.inl hKind) (List.suffix_refl _))
      (fun hKind => hDashes (Or.inr hKind) (List.suffix_refl _))
    exact hNext
  · have hSeam : Seam u rest [] :=
      ⟨.cut rest, hu, fun hHead => (by cases hHead), fun _ => hLine⟩
    have hStable := firstOf_stable hd none hSeam Form.early
    rw [Recogniser.StableAt, List.append_nil] at hStable
    have hEarly := @firstOf_early d hd before (u ++ rest) (by
      rw [h]
      exact fun hEq => hDot (congrArg Match.kind hEq))
    rw [next_eq_or, hEarly] at h
    rw [next_eq_or]
    cases hFound : Recogniser.firstOf (Form.early.map (Form.recogniser d none)) (u ++ rest) with
    | none =>
      rw [hFound, Option.none_or] at h
      cases hWord : Symbol.word? d before (u ++ rest) with
      | none =>
        rw [hWord] at h
        cases congrArg Match.verdict h
      | some m =>
        rw [hWord, Option.getD_some] at h
        rw [h] at hWord
        rw [hStable.1 hFound, Option.none_or, word?_alone hu hWord, Option.getD_some]
    | some m =>
      rw [hFound, Option.some_or, Option.getD_some] at h
      subst h
      have hKind : kind ≠ .identifier := by
        obtain ⟨r, hMem, hr⟩ := List.exists_of_findSome?_eq_some hFound
        obtain ⟨f, hf, rfl⟩ := List.mem_map.1 hMem
        have hVerdict := (f.recogniser_yields d none _ _ hr).2
        have hNone : ∀ g ∈ Form.early, accept .identifier ∉ g.verdicts := by decide
        rintro rfl
        exact hNone f hf hVerdict
      have hFits : Fits u rest [] kind u.length :=
        ⟨Nat.le_refl _, fun _ => rfl, hQuote, fun _ hNe => absurd rfl hNe,
          fun hOperator _ => hDashes (Or.inl hOperator), fun hName => absurd hName hKind⟩
      rw [hStable.2 kind u.length hFits hFound, Option.some_or, Option.getD_some, kindAlone,
        if_neg hKind]

end Lexeme

/-! ### Tokens by themselves -/

/-- What can be said of a lexeme by itself: nothing of an error, nor of a dot or
the quote of a region, which take their meaning from what stands around them, nor
of two dashes that are no comment only because of what stands after them. -/
structure Lexeme.StandsAlone (x : Lexeme) : Prop where
  not_error : x.kind ≠ .error
  not_dot : x.kind ≠ .dot
  not_regionQuote : x.kind ≠ .regionQuote
  not_dashes : x.kind = .operator ∨ x.kind = .quotedIdentifier → ¬['-', '-'] <:+ x.text

/-- The text of the lexeme is read as that lexeme. -/
def Lexeme.ReadsAlone (d : Dialect) (x : Lexeme) : Prop :=
  next d none x.text = .accept (kindAlone d x.kind x.text) x.text.length

/-- The lexeme at the head of a text. -/
theorem Lexeme.readsAlone_next (hd : d.Valid) {before : Option TokenKind} {text : List Char}
    (hText : text ≠ []) (h : ((next d before text).lexeme text).StandsAlone) :
    ((next d before text).lexeme text).ReadsAlone d := by
  obtain ⟨kind, n, hNext⟩ := Match.exists_accept h.not_error
  have hLe := next_le d before hText
  have hPos := next_pos d before text
  rw [hNext] at h
  rw [hNext, Match.accept_length] at hLe hPos
  have hLength : (text.take n).length = n := by rw [List.length_take, Nat.min_eq_left hLe]
  have hNe : text.take n ≠ [] := List.length_pos_iff.1 (by rw [hLength]; exact hPos)
  have hHere : next d before (text.take n ++ text.drop n) = .accept kind (text.take n).length := by
    rw [List.take_append_drop, hLength, hNext]
  have hAlone := next_alone hd hNe hHere h.not_regionQuote h.not_dot h.not_dashes
  rw [hNext]
  exact hAlone

/-- Whitespace and placeholders are read in a quoted region as outside of it. -/
theorem Region.next_eq_outer {count : Nat} {c : Char} {rest : List Char}
    (h : ((next d count (c :: rest)).lexeme (c :: rest)).StandsAlone) :
    next d count (c :: rest) = Lexeme.next d none (c :: rest) := by
  rcases next_cases d count c rest with
    ⟨hSpace, hNext⟩ | ⟨hOpen, hNext⟩ | ⟨_, _, hNext⟩ | ⟨_, _, _, hNext⟩
  · rw [hNext]
    simp [Lexeme.next, Recogniser.firstOf, Lexeme.forms, Symbol.whitespace?, hSpace]
  · rw [hNext] at h ⊢
    rw [Lexeme.next_of_startsOpen d none hOpen]
    unfold judged
    split
    · next hSecond =>
      rw [judged, if_pos hSecond] at h
      exact absurd rfl h.not_error
    · rfl
  · rw [hNext] at h
    exact absurd rfl h.not_regionQuote
  · rw [hNext] at h
    exact absurd rfl h.not_error

theorem readsAlone_of_mem_settledLexemes (hd : d.Valid) (source : List Char) :
    ∀ x ∈ settledLexemes d source, x.StandsAlone → x.ReadsAlone d := by
  apply forall_mem_settledLexemes
  · intro before c rest
    exact Lexeme.readsAlone_next hd (List.cons_ne_nil c rest)
  · intro count c rest hAlone
    have hOuter := Region.next_eq_outer hAlone
    rw [hOuter] at hAlone ⊢
    exact Lexeme.readsAlone_next hd (List.cons_ne_nil c rest) hAlone
  · exact fun hAlone => absurd rfl hAlone.not_error
  · exact fun text _ hAlone => absurd rfl hAlone.not_error

theorem Dialect.wordKind_mem (d : Dialect) (w : Word) :
    d.wordKind w ∈ [TokenKind.keyword, .typeName, .identifier] := by
  unfold Dialect.wordKind
  split
  · simp
  · split <;> simp

theorem Dialect.wordKind_not_mem (d : Dialect) (w : Word) :
    d.wordKind w ∉ [TokenKind.error, .dot, .regionQuote] := by
  have hKinds : ∀ x ∈ [TokenKind.keyword, .typeName, .identifier],
      x ∉ [TokenKind.error, .dot, .regionQuote] := by
    decide
  exact hKinds _ (d.wordKind_mem w)

/-- A source that one step takes as a whole. -/
theorem Faultless.of_next {text : List Char} {kind : TokenKind} (hText : text ≠ [])
    (hKind : kind ∉ [TokenKind.error, .dot, .regionQuote])
    (h : Lexeme.next d none text = .accept kind text.length) :
    Faultless d text [⟨text, accept kind⟩] := by
  simp only [List.mem_cons, List.not_mem_nil, or_false, not_or] at hKind
  obtain ⟨hError, hDot, hQuote⟩ := hKind
  refine ⟨?_, ?_, ?_⟩
  · have hNext : Lexeme.next d none (text ++ []) = .accept kind text.length := by
      rw [List.append_nil]
      exact h
    have hLexemes := lexemes_append hText hQuote hNext
    rwa [List.append_nil, lexemes] at hLexemes
  · intro y hy
    rw [List.mem_singleton.1 hy]
    exact hError
  · exact ⟨fun hKind => absurd hKind hDot, trivial⟩

/-- A source that is one such lexeme. -/
theorem Lexeme.ReadsAlone.faultless {x : Lexeme} (h : x.ReadsAlone d) (hx : x.StandsAlone)
    (hText : x.text ≠ []) :
    Faultless d x.text [⟨x.text, accept (kindAlone d x.kind x.text)⟩] := by
  refine Faultless.of_next hText ?_ h
  unfold kindAlone
  split
  · exact d.wordKind_not_mem x.text
  · simp [hx.not_error, hx.not_dot, hx.not_regionQuote]

/-- **Lexemes are self-delimiting.**  The text of a token is read as exactly that
token, whatever stood before and after it in the source; only a word is classified
by the tables then, where a dot beside it had made it an identifier.  Nothing is
said of errors, dots and the quotes of regions, nor of operators and quoted
identifiers that end in two dashes. -/
theorem scan_alone (d : Dialect) (hd : d.Valid) (source : List Char) (t : Token)
    (hMem : t ∈ (d.scan source).tokens) (hKind : t.kind ∉ [.error, .dot, .regionQuote])
    (hDashes : t.kind = .operator ∨ t.kind = .quotedIdentifier →
      ¬['-', '-'] <:+ t.text source) :
    (d.scan (t.text source)).diagnostics = [] ∧
      (d.scan (t.text source)).tokens =
        [⟨if t.kind = .identifier then d.wordKind (t.text source) else t.kind,
          ⟨0, Text.byteLength (t.text source), 1, 1⟩⟩] := by
  rw [scan_eq] at hMem
  obtain ⟨us, x, vs, hLexemes, rfl⟩ := mem_tokensAt hMem
  have hText : Token.text source
      ⟨x.kind, Span.ofText (Position.start.advance (textOf us)) x.text⟩ = x.text := by
    rw [← textOf_settledLexemes d source, hLexemes, textOf_append, textOf_cons]
    exact text_ofText _ _ _ _
  rw [hText] at hDashes ⊢
  simp only [List.mem_cons, List.not_mem_nil, or_false, not_or] at hKind
  have hx : x ∈ settledLexemes d source := by
    rw [hLexemes]
    simp
  have hAlone : x.StandsAlone := ⟨hKind.1, hKind.2.1, hKind.2.2, hDashes⟩
  have hReads := readsAlone_of_mem_settledLexemes hd source x hx hAlone
  have hFaultless := hReads.faultless hAlone (text_ne_nil_of_mem_settledLexemes d source x hx)
  refine ⟨hFaultless.diagnostics_eq_nil, ?_⟩
  rw [hFaultless.tokens_eq, tokensAt_cons, tokensAt_nil, Span.ofText]
  simp only [Position.start, Nat.zero_add]
  rfl

/-- A keyword that is a name in its source is a keyword by itself. -/
theorem scan_alone_keyword :
    (⟨.identifier, ⟨2, 4, 1, 3⟩⟩ : Token) ∈
        (Preset.standard.rules.scan "a.AS--".toList).tokens ∧
      (Preset.standard.rules.scan "AS".toList).diagnostics = [] ∧
      (Preset.standard.rules.scan "AS".toList).tokens = [⟨.keyword, ⟨0, 2, 1, 1⟩⟩] := by
  have hMem : (⟨.identifier, ⟨2, 4, 1, 3⟩⟩ : Token) ∈
      (Preset.standard.rules.scan "a.AS--".toList).tokens := by
    decide +kernel
  have hText : Token.text "a.AS--".toList ⟨.identifier, ⟨2, 4, 1, 3⟩⟩ = "AS".toList := by
    decide +kernel
  have hKeyword : Preset.standard.rules.wordKind "AS".toList = .keyword := by
    decide +kernel
  have hAlone := scan_alone Preset.standard.rules (Preset.rules_valid .standard)
    "a.AS--".toList ⟨.identifier, ⟨2, 4, 1, 3⟩⟩ hMem (by decide) (fun h => by
      rcases h with h | h <;> cases h)
  rw [hText, if_pos rfl, hKeyword] at hAlone
  exact ⟨hMem, hAlone⟩

end SqlTemplate
