import SqlTemplate.Proofs.Presets
import SqlTemplate.Proofs.Reading

/-!
# Text after a complete statement

A source without diagnostics ends in a semicolon, and more text is put after it.
The tokens of the source stay the same, with one exception.  A special variable
takes a closed quoted run after it as its name, and looks for the closing quote as
far ahead as it takes, without escapes.  A variable right before a quote that
could not find the closing quote, and therefore has no name, may find it in the
text that is put after the statement.

* `Faultless.append`: unless there is such a variable, the tokens stay the same.
* `Faultless.bareVariablesApart_of_append`: if there is one, a quote after the
  statement changes them.
* `Faultless.bareVariablesApart_of_plain`: where a backslash does not escape there
  is none, because the quote without a closing quote is an error by itself.
* `scan_append_iff`: all of this for the built-in dialects.
-/

namespace SqlTemplate

open Verdict (accept reject)

variable {d : Dialect}

/-! ### Variables without a name -/

theorem Symbol.sigilLength_append {text : List Char} (h : sigilLength text = text.length)
    {c : Char} (hc : c ≠ '@') (rest : List Char) :
    sigilLength (text ++ c :: rest) = text.length := by
  match text with
  | [] => cases h
  | [a] => simp [sigilLength_cons, hc]
  | a :: b :: text =>
    rw [List.cons_append, List.cons_append, sigilLength_cons, ← sigilLength_cons a b text, h]

namespace Lexeme

theorem length_of_specialVariable {before : Option TokenKind} {text : List Char} {n : Nat}
    (h : next d before text = .accept .specialVariable n) :
    n = Symbol.sigilLength text +
      Symbol.variableNameLength (text.drop (Symbol.sigilLength text)) := by
  rcases next_cases d before text with ⟨f, hf, hVerdict⟩ | hNext
  · rw [h, Match.accept_verdict] at hVerdict
    obtain rfl : f = .specialVariable := by
      cases f <;> revert hVerdict <;> decide
    rw [h] at hf
    cases text with
    | nil => cases hf
    | cons c rest =>
      simp only [Form.recogniser, Symbol.specialVariable?, Option.ite_none_right_eq_some,
        Option.some.injEq] at hf
      exact (congrArg Match.length hf.2).symm
  · rw [hNext] at h
    cases congrArg Match.verdict h

/-- **A quote right after a variable without a name is never closed.** -/
theorem IsBare.closing?_eq_none {x : Lexeme} (hx : x.IsBare) {before : Option TokenKind}
    {quote : Char} {rest : List Char} (hQuote : Text.startsQuote (quote :: rest) = true)
    (h : next d before (x.text ++ quote :: rest) = .accept .specialVariable x.text.length) :
    Quoted.closing? quote false rest = none := by
  have hAt : quote ≠ '@' := by
    rintro rfl
    cases hQuote
  have hSigils := Symbol.sigilLength_append hx.2 hAt rest
  have hName := length_of_specialVariable h
  rw [hSigils, List.drop_left] at hName
  have hNone : Symbol.variableNameLength (quote :: rest) = 0 := by omega
  have hQuoted : Symbol.variableNameLength (quote :: rest) =
      (Quoted.length? quote false (quote :: rest)).getD 0 := if_pos hQuote
  rw [hQuoted] at hNone
  cases hRun : Quoted.length? quote false (quote :: rest) with
  | none => exact Option.map_eq_none_iff.1 hRun
  | some n =>
    have hPos := Quoted.length?_pos hRun
    rw [hRun, Option.getD_some] at hNone
    omega

end Lexeme

/-- What is a token outside quoted regions is found by the step at its place. -/
theorem exists_next_of_mem {u text rest : List Char} {kind : TokenKind}
    (hKind : kind.isOuter = true)
    (h : (⟨kind, Span.ofText (Position.start.advance u) text⟩ : Token) ∈
      (d.scan (u ++ (text ++ rest))).tokens) :
    ∃ before, Lexeme.next d before (text ++ rest) = .accept kind text.length := by
  rw [scan_eq] at h
  obtain ⟨us, x, vs, hLexemes, hToken⟩ := mem_tokensAt h
  have hSource : u ++ (text ++ rest) = textOf us ++ (x.text ++ textOf vs) := by
    rw [← textOf_settledLexemes d (u ++ (text ++ rest)), hLexemes, textOf_append, textOf_cons]
  obtain rfl : kind = x.kind := congrArg Token.kind hToken
  have hText : text = x.text := by
    have hSame := congrArg (Token.text (u ++ (text ++ rest))) hToken
    rw [text_ofText] at hSame
    rw [hSame, hSource, text_ofText]
  have hBefore : u = textOf us := by
    have hStart : (Position.start.advance u).offset = (Position.start.advance (textOf us)).offset :=
      congrArg (fun t => t.span.start) hToken
    rw [start_advance_offset, start_advance_offset] at hStart
    have hTake := Text.takeBytes_append u (text ++ rest)
    rw [hStart, hSource, Text.takeBytes_append] at hTake
    exact hTake.symm
  have hNotDot : x.verdict ≠ reject .strayDot := by
    intro hStray
    rw [Lexeme.kind, hStray] at hKind
    cases hKind
  obtain ⟨xs, ys, hUndecided, hxs⟩ := exists_of_settleDots hNotDot hLexemes
  obtain ⟨before, hReads, hNext, -⟩ := Lexeme.exists_place hKind hUndecided
  have hAfter : textOf (x :: ys) = text ++ rest := by
    have hWhole := hReads.textOf_append
    rw [hxs, ← hBefore] at hWhole
    exact List.append_cancel_left hWhole
  refine ⟨before, ?_⟩
  rw [← hAfter, hNext, hText]

/-- **If no text changes the tokens before it, no variable without a name stands
right before a quote**: after another quote such a variable would have a name. -/
theorem Faultless.bareVariablesApart_of_append {source : List Char} {zs : List Lexeme}
    (h : Faultless d source zs)
    (hAppend : ∀ more, (d.scan source).tokens <+: (d.scan (source ++ more)).tokens) :
    BareVariablesApart source (d.scan source).tokens := by
  refine h.bareVariablesApart ?_
  rintro us x v vs quote inner rfl hBare hText
  rw [← Bool.not_eq_true]
  intro hQuote
  have hOuter : x.kind.isOuter = true := by rw [hBare.1]; rfl
  have hMem : (⟨x.kind, Span.ofText (Position.start.advance (textOf us)) x.text⟩ : Token) ∈
      (d.scan source).tokens := by
    rw [h.tokens_eq, tokensAt_append, tokensAt_cons]
    simp
  have hStill : ∀ more, Quoted.closing? quote false (inner ++ textOf vs ++ more) = none := by
    intro more
    have hToken := (hAppend more).subset hMem
    have hSource : source ++ more =
        textOf us ++ (x.text ++ quote :: (inner ++ textOf vs ++ more)) := by
      rw [← h.textOf_eq]
      simp [hText]
    rw [hSource] at hToken
    obtain ⟨before, hNext⟩ := exists_next_of_mem hOuter hToken
    rw [hBare.1] at hNext
    exact hBare.closing?_eq_none hQuote hNext
  have hBody := Quoted.closing?_eq_none_iff.1 (hStill [])
  rw [List.append_nil] at hBody
  have hEnd : ([] : List Char).head? ≠ some quote := by simp
  have hClosed := Quoted.closing?_body (fun hOn => by cases hOn) hBody hEnd
  rw [hStill [quote]] at hClosed
  cases hClosed

/-! ### Reading past a semicolon -/

/-- **Text after a semicolon changes no token before it**, unless it gives a name to
a variable. -/
theorem Faultless.append (hd : d.Valid) {source : List Char} {xs : List Lexeme}
    (h : Faultless d source (xs ++ [Lexeme.semicolon]))
    (hBare : BareVariablesApart source (d.scan source).tokens) (more : List Char) :
    (d.scan source).tokens <+: (d.scan (source ++ more)).tokens := by
  obtain ⟨before, hReads, -, -⟩ := h.exists_place rfl
  have hMoved := h.exchange hd hBare hReads (.same (Or.inl rfl) [] more) (List.cons_ne_nil _ _)
    (fun hBrace => by cases hBrace)
  have hOpen : Placeholder.startsOpen (';' :: more) = false := by cases more <;> rfl
  have hClose : Placeholder.startsClose (';' :: more) = false := by cases more <;> rfl
  have hNext : Lexeme.next d before ([';'] ++ more) = .accept .semicolon 1 :=
    Lexeme.next_of_mark hd rfl hOpen hClose rfl
  have hSource : source ++ more = textOf xs ++ ([';'] ++ more) := by
    rw [← h.textOf_eq, textOf_append, List.append_assoc]
    rfl
  have hLexemes : lexemes d none (source ++ more) =
      xs ++ Lexeme.semicolon :: lexemes d (some .semicolon) more := by
    rw [hSource, List.singleton_append, hMoved.lexemes_eq, ← List.singleton_append,
      lexemes_append (List.cons_ne_nil _ _) (by decide) hNext]
    rfl
  have hSettled : settledLexemes d (source ++ more) =
      (xs ++ [Lexeme.semicolon]) ++ settleDots none (lexemes d (some .semicolon) more) := by
    rw [settledLexemes, hLexemes, settleDots_split, settleDots_eq_self h.dots]
  rw [h.tokens_eq, scan_eq, hSettled]
  exact ⟨_, (tokensAt_append _ _ _).symm⟩

/-! ### Quotes that are errors -/

theorem Placeholder.getLast?_of_isWhole {p : List Char} (hp : IsWhole d p) :
    p.getLast? = some '}' := by
  obtain ⟨left, inner, right, after, hShape, hLength⟩ := match?_eq_accept_iff.1 hp
  have hText := hShape.text_eq
  have hCount := congrArg List.length hText
  simp only [List.length_cons, List.length_append] at hCount
  obtain rfl : after = [] := List.length_eq_zero_iff.1 (by omega)
  rw [hText]
  simp [List.getLast?_cons, List.getLast?_append]

/-- No quote stands before the closing quote of a region without faults. -/
theorem Region.IsForm.getLast?_ne {text : List Char} (h : IsForm d text) :
    text.getLast? ≠ some '\'' := by
  obtain ⟨left, p, right, rfl, -, hp, hRight⟩ := h
  rw [List.getLast?_append, List.getLast?_append, Placeholder.getLast?_of_isWhole hp]
  cases hLast : right.getLast? with
  | none => simp
  | some c =>
    have hSpace := hRight c (List.mem_of_getLast? hLast)
    intro hQuote
    obtain rfl : c = '\'' := by simpa using hQuote
    cases hSpace

theorem exists_error_of_next {before : Option TokenKind} {text : List Char} (hText : text ≠ [])
    (h : (Lexeme.next d before text).kind = .error) :
    ∃ x ∈ lexemes d before text, x.kind = .error := by
  have hPlain : (Lexeme.next d before text).verdict ≠ accept .regionQuote := by
    intro hVerdict
    rw [Match.kind, hVerdict] at h
    cases h
  rw [lexemes_of_plain hText hPlain]
  exact ⟨_, List.mem_cons_self, h⟩

/-- **Where a backslash does not escape, an apostrophe that is never closed is an
error**, or there is one after it: a quoted region closes at a quote of its own,
and the apostrophe after that is never closed either. -/
theorem exists_error_of_apostrophe (hEscapes : d.on .backslashEscapes = false) :
    ∀ {text : List Char} {before : Option TokenKind}, Quoted.Body '\'' false text →
      ∃ x ∈ lexemes d before ('\'' :: text), x.kind = .error := by
  intro text
  induction hLength : text.length using Nat.strongRecOn generalizing text with
  | ind k ih =>
    subst hLength
    intro before hBody
    have hPlan := Lexeme.apostrophe?_eq_next d before text
    rw [Region.apostrophe?] at hPlan
    cases hText : QuotePlan.ofText (d.on .backslashEscapes) text with
    | string n =>
      obtain ⟨body, rest, hInner, rfl, hHead, -⟩ := QuotePlan.exists_body_of_ofText hText
      rw [hEscapes] at hInner
      have hClosed := Quoted.closing?_body (fun hOn => by cases hOn) hInner.quoted hHead
      rw [Quoted.closing?_eq_none_iff.2 hBody] at hClosed
      cases hClosed
    | unterminated =>
      simp only [hText, Option.some.injEq] at hPlan
      exact exists_error_of_next (List.cons_ne_nil _ _) (by rw [← hPlan]; rfl)
    | region =>
      have hQuote : (Lexeme.next d before ('\'' :: text)).verdict = accept .regionQuote := by
        rw [Lexeme.next_of_region before hText]
        rfl
      cases hAfter : (Region.scan d 0 text).after with
      | none =>
        rw [lexemes_of_open hQuote hAfter]
        exact ⟨Lexeme.openQuote, List.mem_cons_self, rfl⟩
      | some beyond =>
        rw [lexemes_of_closed hQuote hAfter]
        by_cases hClean : ∀ x ∈ (Region.scan d 0 text).lexemes, x.kind ≠ .error
        · obtain ⟨inside, -, hForm, hWhole⟩ := Region.exists_isForm hText hAfter hClean
          obtain ⟨rest, rfl, hRest⟩ := hBody.exists_pair hWhole hForm.getLast?_ne
          have hShort : rest.length < text.length := by
            rw [hWhole]
            simp
            omega
          obtain ⟨x, hx, hError⟩ := @ih _ hShort rest rfl (some .regionQuote) hRest
          exact ⟨x, by simp [hx], hError⟩
        · simp only [Classical.not_forall, ne_eq, Classical.not_not] at hClean
          obtain ⟨x, hx, hError⟩ := hClean
          exact ⟨x, by simp [hx], hError⟩

/-- Any other quote that is never closed is an error by itself. -/
theorem Lexeme.next_of_open_quote (hEscapes : d.on .backslashEscapes = false) {quote : Char}
    (hQuote : quote ∈ ['"', '\x60']) (hOperator : d.isOperatorChar quote = false)
    (hVariable : d.isVariableChar quote = false) {text : List Char}
    (hNone : Quoted.closing? quote false text = none) (before : Option TokenKind) :
    (next d before (quote :: text)).kind = .error := by
  have hFacts : ∀ c ∈ ['"', '\x60'], Text.isSpace c = false ∧ c ≠ '{' ∧ c ≠ '}' ∧ c ≠ '.' ∧
      c ∉ ['\'', '-', '#', '/', '0', '_', '$'] ∧ c.toLower ∉ ['b', 'x', 'e', 'n'] ∧
      c.isDigit = false ∧ Text.isWordStart c = false ∧ Symbol.punctuationKind? c = none := by
    simp only [List.forall_mem_cons, List.not_mem_nil, false_imp_iff,
      implies_true, and_true]
    decide +kernel
  obtain ⟨hSpace, hLeft, hRight, hDot, hFirst, hLetter, hDigit, hWord, hMark⟩ :=
    hFacts quote hQuote
  have hStart : ∀ mark : Char × Char, quote ≠ mark.1 →
      Brackets.startsWith mark (quote :: text) = false := by
    intro mark hMark
    cases text <;> simp [Brackets.startsWith, hMark]
  have hNumber : Symbol.number? before (quote :: text) = none := by
    simp [Symbol.number?, Number.startsDigit, Number.startsFraction, hDigit, hDot]
  have hDelimited : ∀ kind fault, Symbol.delimited quote false kind fault (quote :: text) =
      .reject fault (text.length + 1) := by
    intro kind fault
    simp [Symbol.delimited, Quoted.length?, hNone]
  rw [next_eq_late hSpace hFirst hLetter (hStart _ hLeft) (hStart _ hRight)]
  simp only [Recogniser.firstOf, lateForms, List.findSome?_cons, Symbol.string?, hEscapes,
    Symbol.quotedIdentifier?, hDelimited, hNumber, Symbol.specialVariable?, hVariable,
    Symbol.punctuation?, hMark, Symbol.operator?, hOperator, Symbol.word?, hWord]
  -- an unclosed string, an unclosed identifier, or a character that starts nothing
  split
  · next hFound =>
    split at hFound
    · cases hFound
      rfl
    · cases hFound
  · split
    · next hFound =>
      split at hFound
      · cases hFound
        rfl
      · cases hFound
    · rfl

/-- **Where a backslash does not escape, no variable without a name stands right
before a quote**: the quote would be an error. -/
theorem Faultless.bareVariablesApart_of_plain (hEscapes : d.on .backslashEscapes = false)
    (hQuotes : ∀ c ∈ ['"', '\x60'], d.isOperatorChar c = false ∧ d.isVariableChar c = false)
    {source : List Char} {zs : List Lexeme} (h : Faultless d source zs) :
    BareVariablesApart source (d.scan source).tokens := by
  refine h.bareVariablesApart ?_
  rintro us x v vs quote inner rfl hBare hText
  rw [← Bool.not_eq_true]
  intro hQuote
  obtain ⟨before, -, hNext, hAfter⟩ := h.exists_place (by rw [hBare.1]; rfl)
  have hRest : textOf (v :: vs) = quote :: (inner ++ textOf vs) := by
    rw [textOf_cons, hText, List.cons_append]
  rw [textOf_cons, hRest, hBare.1] at hNext
  have hOpen : Quoted.closing? quote false (inner ++ textOf vs) = none :=
    hBare.closing?_eq_none hQuote hNext
  rw [hRest] at hAfter
  have hError : ∃ y ∈ v :: vs, y.kind = .error := by
    rw [← hAfter]
    by_cases hApostrophe : quote = '\''
    · subst hApostrophe
      exact exists_error_of_apostrophe hEscapes (Quoted.closing?_eq_none_iff.1 hOpen)
    · have hOther : quote ∈ ['"', '\x60'] := by
        simpa [Text.startsQuote, hApostrophe] using hQuote
      obtain ⟨hOperator, hVariable⟩ := hQuotes quote hOther
      exact exists_error_of_next (List.cons_ne_nil _ _)
        (Lexeme.next_of_open_quote hEscapes hOther hOperator hVariable hOpen _)
  obtain ⟨y, hy, hFault⟩ := hError
  exact h.accepted y (by simp only [List.mem_append, List.mem_cons] at hy ⊢; simp [hy]) hFault

/-! ### Complete statements -/

/-- The last lexeme of a source whose last token is a semicolon. -/
theorem Faultless.exists_semicolon {source : List Char} {zs : List Lexeme}
    (h : Faultless d source zs)
    (hLast : (d.scan source).tokens.getLast?.map (·.kind) = some .semicolon) :
    ∃ xs, zs = xs ++ [Lexeme.semicolon] := by
  rw [h.tokens_eq, ← List.getLast?_map, kind_tokensAt, List.getLast?_map] at hLast
  rcases List.eq_nil_or_concat zs with rfl | ⟨xs, y, rfl⟩
  · cases hLast
  · rw [List.concat_eq_append, List.getLast?_concat, Option.map_some, Option.some.injEq] at hLast
    have hMem : y ∈ settledLexemes d source := by
      rw [h.settled]
      simp
    rw [List.concat_eq_append, ← eq_semicolon_of_mem_settledLexemes d source y hMem hLast]
    exact ⟨xs, rfl⟩

/-- **When text can be put after a complete statement.**  In a built-in dialect,
take a source without diagnostics whose last token is a semicolon.  No text after
it changes its tokens exactly if no special variable without a name stands right
before a token that starts with a quote.  In the dialects in which a backslash does
not escape this is always so. -/
theorem scan_append_iff (p : Preset) (source : List Char)
    (hClean : (p.rules.scan source).diagnostics = [])
    (hLast : (p.rules.scan source).tokens.getLast?.map (·.kind) = some .semicolon) :
    ((∀ more, (p.rules.scan source).tokens <+: (p.rules.scan (source ++ more)).tokens) ↔
        BareVariablesApart source (p.rules.scan source).tokens) ∧
      (p.rules.on .backslashEscapes = false →
        ∀ more, (p.rules.scan source).tokens <+: (p.rules.scan (source ++ more)).tokens) := by
  have hFaultless := faultless_of_diagnostics hClean
  obtain ⟨xs, hLexemes⟩ := hFaultless.exists_semicolon hLast
  rw [hLexemes] at hFaultless
  have hQuotes : ∀ c ∈ ['"', '\x60'],
      p.rules.isOperatorChar c = false ∧ p.rules.isVariableChar c = false := by
    simp only [List.forall_mem_cons, List.not_mem_nil, false_imp_iff,
      implies_true, and_true]
    cases p <;> decide +kernel
  refine ⟨⟨hFaultless.bareVariablesApart_of_append, hFaultless.append p.rules_valid⟩, ?_⟩
  exact fun hEscapes => hFaultless.append p.rules_valid
    (hFaultless.bareVariablesApart_of_plain hEscapes hQuotes)

/-- A variable with a name may stand right before a string. -/
theorem scan_append_iff_named :
    (Preset.mysql.rules.scan "@v'a';".toList).diagnostics = [] ∧
      ∀ more, (Preset.mysql.rules.scan "@v'a';".toList).tokens <+:
        (Preset.mysql.rules.scan ("@v'a';".toList ++ more)).tokens := by
  have hClean : (Preset.mysql.rules.scan "@v'a';".toList).diagnostics = [] := by
    decide +kernel
  have hBare : BareVariablesApart "@v'a';".toList
      (Preset.mysql.rules.scan "@v'a';".toList).tokens :=
    .of_named (by decide +kernel)
  exact ⟨hClean, (scan_append_iff .mysql "@v'a';".toList hClean (by decide +kernel)).1.2 hBare⟩

/-- **Text after a complete statement can change its tokens**: in `@'\'';` the at
sign is a variable without a name, and with `'a'` after the statement it takes all
of it up to the next quote as its name. -/
theorem scan_append_variable :
    ¬∀ (p : Preset) (source more : List Char), (p.rules.scan source).diagnostics = [] →
      (p.rules.scan source).tokens.getLast?.map (·.kind) = some .semicolon →
      (p.rules.scan source).tokens <+: (p.rules.scan (source ++ more)).tokens := by
  intro h
  have hPrefix := h .mysql "@'\\'';".toList "'a'".toList (by decide +kernel) (by decide +kernel)
  revert hPrefix
  decide +kernel

end SqlTemplate
