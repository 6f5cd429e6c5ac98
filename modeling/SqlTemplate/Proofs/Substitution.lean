import SqlTemplate.Proofs.Presets
import SqlTemplate.Proofs.Reading

/-!
# Replacing a token

One token of a source without diagnostics is replaced by another text.  The
lexemes before it stay the same by `Reads.exchange`, and those after it stay the
same as long as reading goes on in the same way after the new lexeme
(`Faultless.replace`).  Two replacements are made:

* `scan_replace_name`: a well-formed placeholder takes the place of a name or a
  keyword, in the built-in dialects;
* `scan_replace_string`: the content of a string is replaced by any value, with
  its quotes (and backslashes, where they escape) doubled.
-/

namespace SqlTemplate

open Verdict (accept reject)

variable {d : Dialect}

/-- The source with another text in the place of a token. -/
def Token.replace (source : List Char) (t : Token) (new : List Char) : List Char :=
  Text.takeBytes t.span.start source ++ (new ++ Text.dropBytes t.span.stop source)

/-! ### Reading on after a lexeme -/

/-- The kind of the token before matters only to a fraction, which is none after a
name, and to a word, which is a name after a dot. -/
theorem Lexeme.next_congr {before before' : Option TokenKind} {text : List Char}
    (hName : Number.startsFraction text = true →
      before.any (·.isNamePart) = before'.any (·.isNamePart))
    (hDot : (before == some .dot) = (before' == some .dot)) :
    next d before text = next d before' text := by
  have hNumber : Symbol.number? before text = Symbol.number? before' text := by
    cases hFraction : Number.startsFraction text with
    | false => simp [Symbol.number?, hFraction]
    | true => simp only [Symbol.number?, hName hFraction]
  have hWord : Symbol.word? d before text = Symbol.word? d before' text := by
    cases text with
    | nil => rfl
    | cons c rest => simp only [Symbol.word?, Symbol.wordKindAt, hDot]
  simp only [next, Recogniser.firstOf, forms, List.findSome?_cons, hNumber, hWord]

theorem lexemes_congr {before before' : Option TokenKind} {text : List Char}
    (h : Lexeme.next d before text = Lexeme.next d before' text) :
    lexemes d before text = lexemes d before' text := by
  cases text with
  | nil => rw [lexemes, lexemes]
  | cons c rest => rw [lexemes, lexemes, h]

/-! ### One token for another -/

namespace Faultless

variable {source : List Char} {xs ys : List Lexeme} {y : Lexeme}

/-- **A lexeme gives way to another one**, and nothing else changes. -/
theorem replace (hd : d.Valid) (h : Faultless d source (xs ++ y :: ys))
    (hBare : BareVariablesApart source (d.scan source).tokens) {before : Option TokenKind}
    (hReads : Reads d none source xs before (textOf (y :: ys))) {new : List Char}
    {kind : TokenKind} (hNew : new ≠ []) (hE : Exchange (textOf (y :: ys)) (new ++ textOf ys))
    (hBrace : new.head? = some '{' → ∀ us x, xs = us ++ [x] → x.text ≠ ['{'])
    (hLexemes : lexemes d before (new ++ textOf ys) = ⟨new, accept kind⟩ :: ys)
    (hError : kind ≠ .error) (hDot : kind ≠ .dot)
    (hName : y.kind.isNamePart = true → kind.isNamePart = true) :
    Faultless d (textOf xs ++ (new ++ textOf ys)) (xs ++ ⟨new, accept kind⟩ :: ys) := by
  have hHead : (new ++ textOf ys).head? = new.head? := by
    obtain ⟨c, rest, rfl⟩ := List.exists_cons_of_ne_nil hNew
    rfl
  have hMoved := h.exchange hd hBare hReads hE (by simp [hNew]) (by rwa [hHead])
  refine ⟨by rw [hMoved.lexemes_eq, hLexemes], fun x hx => ?_, ?_⟩
  · rcases List.mem_append.1 hx with hBefore | hRest
    · exact h.accepted x (by simp [hBefore])
    · rcases List.mem_cons.1 hRest with rfl | hAfter
      · exact hError
      · exact h.accepted x (by simp [hAfter])
  · have hDots := h.dots
    rw [List.map_append, List.map_cons] at hDots ⊢
    exact hDots.replace hDot hName

/-- A token of the source is a lexeme of it. -/
theorem exists_lexeme {zs : List Lexeme} (h : Faultless d source zs) {before after : List Token}
    {t : Token} (hTokens : (d.scan source).tokens = before ++ t :: after) :
    ∃ xs y ys, zs = xs ++ y :: ys ∧ tokensAt .start xs = before ∧ t.kind = y.kind ∧
      t.text source = y.text ∧ after.map (·.kind) = ys.map Lexeme.kind ∧
      ∀ new, t.replace source new = textOf xs ++ (new ++ textOf ys) := by
  rw [h.tokens_eq] at hTokens
  obtain ⟨xs, ws, rfl, hBefore, hRest⟩ := tokensAt_eq_append_iff.1 hTokens
  obtain ⟨y, ys, rfl, rfl, hAfter⟩ := tokensAt_eq_cons_iff.1 hRest
  have hSource : source = textOf xs ++ (y.text ++ textOf ys) := by
    rw [← h.textOf_eq, textOf_append, textOf_cons]
  refine ⟨xs, y, ys, rfl, hBefore, rfl, ?_, ?_, fun new => ?_⟩
  · rw [hSource, text_ofText]
  · rw [← hAfter, kind_tokensAt]
  · have hStop : (Position.start.advance (textOf xs)).offset + Text.byteLength y.text =
        Text.byteLength (textOf xs ++ y.text) := by
      rw [start_advance_offset, Text.byteLength_append]
    have hTake : Text.takeBytes (Text.byteLength (textOf xs)) source = textOf xs := by
      rw [hSource, Text.takeBytes_append]
    have hDrop : Text.dropBytes (Text.byteLength (textOf xs ++ y.text)) source = textOf ys := by
      rw [hSource, ← List.append_assoc, Text.dropBytes_append]
    rw [Token.replace, Span.ofText, hStop, hDrop, start_advance_offset, hTake]

end Faultless

/-! ### A placeholder for a name -/

namespace Lexeme

theorem next_of_isWhole (before : Option TokenKind) {p : List Char}
    (hp : Placeholder.IsWhole d p) (rest : List Char) :
    next d before (p ++ rest) = .accept .placeholder p.length := by
  have hMatch := (Placeholder.match?_append_iff rest).2 hp
  simp only [Placeholder.match?, Option.ite_none_right_eq_some, Option.some.injEq] at hMatch
  rw [next_of_startsOpen d before hMatch.1, hMatch.2]

/-- An opening brace by itself is punctuation or an error. -/
theorem kind_of_brace (hd : d.Valid) (before : Option TokenKind) (text : List Char) :
    ∀ x ∈ lexemes d before text, x.text = ['{'] → x.kind ≠ .error → x.kind = .brace := by
  have hOne : ∀ (m : Match) (c : Char) (rest : List Char), m.length ≤ (c :: rest).length →
      (m.lexeme (c :: rest)).text = ['{'] → c = '{' ∧ m.length = 1 := by
    intro m c rest hLe hText
    have hLength := congrArg List.length hText
    rw [Match.lexeme, List.length_take, Nat.min_eq_left hLe, List.length_singleton] at hLength
    rw [Match.lexeme, hLength] at hText
    cases hText
    exact ⟨rfl, hLength⟩
  apply forall_mem_lexemes
  · intro before c rest hText hAccepted
    obtain ⟨rfl, hLength⟩ := hOne _ c rest (next_le d before (List.cons_ne_nil c rest)) hText
    cases hOpen : Placeholder.startsOpen ('{' :: rest) with
    | true =>
      rw [next_of_startsOpen d before hOpen] at hLength
      have hTwo := Placeholder.two_le_scan d hOpen
      omega
    | false =>
      have hClose : Placeholder.startsClose ('{' :: rest) = false := by cases rest <;> rfl
      rw [next_of_mark hd rfl hOpen hClose rfl]
      rfl
  · intro count c rest hText hAccepted
    obtain ⟨rfl, hLength⟩ := hOne _ c rest (Region.next_le d count c rest) hText
    rcases Region.next_cases d count '{' rest with
      ⟨hSpace, _⟩ | ⟨hOpen, hNext⟩ | ⟨hQuote, _⟩ | ⟨_, _, _, hNext⟩
    · exact absurd hSpace (by decide)
    · rw [hNext, Region.judged_length] at hLength
      have hTwo := Placeholder.two_le_scan d hOpen
      omega
    · exact absurd hQuote (by decide)
    · rw [hNext] at hAccepted
      exact absurd rfl hAccepted
  · intro hText
    cases hText

/-- The kinds of names and keywords. -/
def nameKinds : List TokenKind := [.keyword, .typeName, .identifier, .quotedIdentifier]

/-- **How a name starts, and what stands after it**: a word with a dot after it is
always an identifier. -/
theorem next_name {before : Option TokenKind} {text rest : List Char} {kind : TokenKind}
    (hKind : kind ∈ nameKinds) (hText : text ≠ [])
    (hQuotes : ∀ c ∈ d.identifierQuotes, Text.isNameStart c = true)
    (h : next d before (text ++ rest) = .accept kind text.length) :
    text.head?.any Text.isNameStart = true ∧
      (kind.isNamePart = false → rest.head? ≠ some '.') := by
  obtain ⟨c, tail, rfl⟩ := List.exists_cons_of_ne_nil hText
  rcases next_cases d before (c :: tail ++ rest) with ⟨f, hf, hVerdict⟩ | hNext
  · rw [h, Match.accept_verdict] at hVerdict
    have hForms : ∀ kind ∈ nameKinds, ∀ f ∈ Form.all, accept kind ∈ f.verdicts →
        f = .word ∨ f = .quotedIdentifier ∧ kind = .quotedIdentifier := by decide
    rw [h] at hf
    rcases hForms kind hKind f (by cases f <;> decide) hVerdict with rfl | ⟨rfl, rfl⟩
    · simp only [Form.recogniser, Symbol.word?, List.cons_append, Option.ite_none_right_eq_some,
        Option.some.injEq] at hf
      obtain ⟨hStart, hMatch⟩ := hf
      have hRun := congrArg Match.length hMatch
      have hWord := congrArg Match.kind hMatch
      simp only [Match.accept_length] at hRun
      refine ⟨by simp [Text.isNameStart, hStart], fun hPart hDot => ?_⟩
      have hAfter : (c :: (tail ++ rest)).drop (c :: tail).length = rest := List.drop_left
      have hIdentifier : Symbol.wordKindAt d before (c :: (tail ++ rest)) = .identifier := by
        rw [Symbol.wordKindAt, hRun, hAfter, hDot]
        rfl
      rw [show kind = .identifier from hWord.symm.trans hIdentifier] at hPart
      cases hPart
    · simp only [Form.recogniser, Symbol.quotedIdentifier?, List.cons_append,
        Option.ite_none_right_eq_some] at hf
      have hMem := hf.1
      rw [Dialect.isIdentifierQuote, List.contains_iff_mem] at hMem
      exact ⟨hQuotes c hMem, fun hPart => by cases hPart⟩
  · rw [hNext] at h
    cases congrArg Match.verdict h

end Lexeme

theorem Number.startsFraction_of_head {text : List Char} (h : text.head? ≠ some '.') :
    startsFraction text = false := by
  cases text with
  | nil => rfl
  | cons c rest =>
    have hc : c ≠ '.' := by simpa using h
    simp [startsFraction, hc]

/-- **A placeholder takes the place of a name** in the lexemes of a source. -/
theorem Faultless.replace_name (hd : d.Valid)
    (hQuotes : ∀ c ∈ d.identifierQuotes, Text.isNameStart c = true) {source : List Char}
    {xs ys : List Lexeme} {y : Lexeme} (h : Faultless d source (xs ++ y :: ys))
    (hBare : BareVariablesApart source (d.scan source).tokens)
    (hKind : y.kind ∈ Lexeme.nameKinds) (hBrace : ∀ us x, xs = us ++ [x] → x.text ≠ ['{'])
    {p : List Char} (hp : Placeholder.IsWhole d p) :
    Faultless d (textOf xs ++ (p ++ textOf ys)) (xs ++ ⟨p, accept .placeholder⟩ :: ys) := by
  have hOuter : ∀ kind ∈ Lexeme.nameKinds, kind.isOuter = true ∧ kind ≠ .dot := by decide
  obtain ⟨before, hReads, hNext, hAfter⟩ := h.exists_place (hOuter _ hKind).1
  have hText : y.text ≠ [] := h.text_ne_nil y (by simp)
  rw [textOf_cons] at hNext
  obtain ⟨hStart, hDot⟩ := Lexeme.next_name hKind hText hQuotes hNext
  obtain ⟨c, tail, hy⟩ := List.exists_cons_of_ne_nil hText
  obtain ⟨inner, hInner⟩ := Region.head_of_isWhole hp
  have hNew : p ≠ [] := by
    rw [hInner]
    exact List.cons_ne_nil _ _
  have hE : Exchange (textOf (y :: ys)) (p ++ textOf ys) := by
    rw [textOf_cons, hy, hInner]
    rw [hy] at hStart
    exact .opener hStart _ _
  -- a keyword and a placeholder differ only before a fraction, and no dot follows a keyword
  have hSame : Lexeme.next d (some .placeholder) (textOf ys) =
      Lexeme.next d (some y.kind) (textOf ys) := by
    refine Lexeme.next_congr (fun hFraction => ?_) ?_
    · cases hPart : y.kind.isNamePart with
      | true =>
        rw [Option.any_some, Option.any_some, hPart]
        rfl
      | false =>
        rw [Number.startsFraction_of_head (hDot hPart)] at hFraction
        cases hFraction
    · have hOther : (some y.kind == some TokenKind.dot) = false := by
        simpa using (hOuter _ hKind).2
      rw [hOther]
      rfl
  refine h.replace hd hBare hReads hNew hE (fun _ => hBrace) ?_ (by decide) (by decide)
    (fun _ => rfl)
  rw [lexemes_append hNew (by decide) (Lexeme.next_of_isWhole before hp _), lexemes_congr hSame,
    hAfter]

/-- **A placeholder can stand for any name or keyword.**  In a built-in dialect,
take a source without diagnostics in which no special variable stands right before
a quote, and a token of it that is a keyword, a type name or an identifier, quoted
or not, with no opening brace right before it.  With a well-formed placeholder in
the place of the token there are no diagnostics either, and of the kinds of the
tokens only that one changes. -/
theorem scan_replace_name (p : Preset) (source placeholder : List Char) (before after : List Token)
    (t : Token) (hClean : (p.rules.scan source).diagnostics = [])
    (hApart : VariablesApart source (p.rules.scan source).tokens)
    (hTokens : (p.rules.scan source).tokens = before ++ t :: after)
    (hKind : t.kind ∈ [.keyword, .typeName, .identifier, .quotedIdentifier])
    (hBrace : ∀ u, before.getLast? = some u → ¬(u.kind = .brace ∧ u.text source = ['{']))
    (hPlaceholder : Placeholder.IsWhole p.rules placeholder) :
    (p.rules.scan (t.replace source placeholder)).diagnostics = [] ∧
      (p.rules.scan (t.replace source placeholder)).kinds =
        before.map (·.kind) ++ .placeholder :: after.map (·.kind) := by
  have hd := p.rules_valid
  have hFaultless := faultless_of_diagnostics hClean
  obtain ⟨xs, y, ys, hLexemes, rfl, hy, -, hAfter, hReplace⟩ := hFaultless.exists_lexeme hTokens
  have hBraces := Lexeme.kind_of_brace hd none source
  rw [hLexemes] at hFaultless hBraces
  rw [hy] at hKind
  have hQuotes : p.rules.identifierQuotes.all Text.isNameStart = true := by
    cases p <;> decide +kernel
  have hLast : ∀ us x, xs = us ++ [x] → x.text ≠ ['{'] := by
    rintro us x rfl hText
    refine hBrace ⟨x.kind, Span.ofText (Position.start.advance (textOf us)) x.text⟩ ?_ ⟨?_, ?_⟩
    · rw [tokensAt_append, tokensAt_cons, tokensAt_nil, List.getLast?_concat]
    · exact hBraces x (by simp) hText (hFaultless.accepted x (by simp))
    · rw [← hFaultless.textOf_eq, textOf_append, textOf_append, List.append_assoc, textOf_cons,
        textOf_nil, List.append_nil, text_ofText]
      exact hText
  have hNew := hFaultless.replace_name hd (List.all_eq_true.1 hQuotes) hApart.bare hKind hLast
    hPlaceholder
  rw [hReplace]
  refine ⟨hNew.diagnostics_eq_nil, ?_⟩
  rw [TokenStream.kinds, hNew.tokens_eq, kind_tokensAt, kind_tokensAt, hAfter, List.map_append,
    List.map_cons]
  rfl

/-- A keyword stands before the name, and the placeholder becomes part of the
dotted name. -/
theorem scan_replace_name_qualified :
    (Preset.standard.rules.scan "AS a.b".toList).diagnostics = [] ∧
      (Preset.standard.rules.scan
        (Token.replace "AS a.b".toList ⟨.identifier, ⟨3, 4, 1, 4⟩⟩ "{{x}}".toList)).diagnostics =
          [] ∧
      (Preset.standard.rules.scan
        (Token.replace "AS a.b".toList ⟨.identifier, ⟨3, 4, 1, 4⟩⟩ "{{x}}".toList)).kinds =
          [.keyword, .whitespace, .placeholder, .dot, .identifier] := by
  have hClean : (Preset.standard.rules.scan "AS a.b".toList).diagnostics = [] := by
    decide +kernel
  have hTokens : (Preset.standard.rules.scan "AS a.b".toList).tokens =
      [⟨.keyword, ⟨0, 2, 1, 1⟩⟩, ⟨.whitespace, ⟨2, 3, 1, 3⟩⟩] ++
        ⟨.identifier, ⟨3, 4, 1, 4⟩⟩ :: [⟨.dot, ⟨4, 5, 1, 5⟩⟩, ⟨.identifier, ⟨5, 6, 1, 6⟩⟩] := by
    decide +kernel
  refine ⟨hClean, scan_replace_name .standard "AS a.b".toList "{{x}}".toList _ _ _ hClean ?_
    hTokens (by decide) ?_ (by unfold Placeholder.IsWhole; decide +kernel)⟩
  · exact VariablesApart.of_forall (by rw [hTokens]; decide)
  · rintro u ⟨⟩ ⟨⟨⟩, _⟩

/-! ### A value for a string -/

namespace QuotePlan

/-- The string with this value: its apostrophes are doubled, and so are its
backslashes where they escape. -/
def literal (escapes : Bool) (value : List Char) : List Char := Quoted.literal '\'' escapes value

/-- **An encoded value is the text of a string**, unless a placeholder opens in
it. -/
theorem body_encode (escapes : Bool) {value : List Char} (h : ¬['{', '{'] <:+: value) :
    Body escapes (Quoted.encode '\'' escapes value) := by
  induction value with
  | nil => exact .nil
  | cons c value ih =>
    have hRest := ih fun hOpen => h (hOpen.trans (List.suffix_cons c value).isInfix)
    rw [Quoted.encode_cons]
    split
    · next hDouble =>
      rcases hDouble with rfl | ⟨hOn, rfl⟩
      · exact .doubled hRest
      · exact .escaped hOn hRest
    · next hPlain =>
      rw [not_or, not_and] at hPlain
      rw [List.singleton_append]
      refine .plain hPlain.1 hPlain.2 ?_ hRest
      rintro rfl hNext
      rw [Quoted.head_encode] at hNext
      obtain ⟨rest, rfl⟩ : ∃ rest, value = '{' :: rest := by
        cases value with
        | nil => cases hNext
        | cons b rest => exact ⟨rest, by rw [Option.some.inj hNext]⟩
      exact h (List.prefix_append ['{', '{'] rest).isInfix

end QuotePlan

/-- **An apostrophe starts a string exactly before the text of one**, with a
closing quote after it that is not doubled. -/
theorem Lexeme.next_eq_string_iff {before : Option TokenKind} {text rest : List Char} :
    next d before ('\'' :: (text ++ rest)) = .accept .string (text.length + 1) ↔
      rest.head? ≠ some '\'' ∧
        ∃ body, QuotePlan.Body (d.on .backslashEscapes) body ∧ text = body ++ ['\''] := by
  have hPlan : next d before ('\'' :: (text ++ rest)) = .accept .string (text.length + 1) ↔
      QuotePlan.ofText (d.on .backslashEscapes) (text ++ rest) = .string text.length := by
    rw [← Option.some.injEq, ← apostrophe?_eq_next, Region.apostrophe?]
    cases QuotePlan.ofText (d.on .backslashEscapes) (text ++ rest) <;>
      simp [Match.accept, Match.reject]
  rw [hPlan, QuotePlan.ofText_eq_string_iff]
  constructor
  · rintro ⟨body, after, hBody, hText, hHead, hLength⟩
    have hSame : text ++ rest = (body ++ ['\'']) ++ after := by rw [hText]; simp
    obtain ⟨rfl, rfl⟩ := List.append_inj hSame (by simpa using hLength)
    exact ⟨hHead, body, hBody, rfl⟩
  · rintro ⟨hHead, body, hBody, rfl⟩
    exact ⟨body, rest, hBody, by simp, hHead, by simp⟩

/-- **A string gives way to another string** in the lexemes of a source. -/
theorem Faultless.replace_string (hd : d.Valid) {source : List Char} {xs ys : List Lexeme}
    {y : Lexeme} (h : Faultless d source (xs ++ y :: ys))
    (hBare : BareVariablesApart source (d.scan source).tokens) (hKind : y.kind = .string)
    (hHead : y.text.head? = some '\'') {body : List Char}
    (hBody : QuotePlan.Body (d.on .backslashEscapes) body) :
    Faultless d (textOf xs ++ ('\'' :: (body ++ ['\'']) ++ textOf ys))
      (xs ++ ⟨'\'' :: (body ++ ['\'']), accept .string⟩ :: ys) := by
  obtain ⟨before, hReads, hNext, hAfter⟩ := h.exists_place (by rw [hKind]; rfl)
  obtain ⟨tail, hy⟩ : ∃ tail, y.text = '\'' :: tail := by
    cases hText : y.text with
    | nil =>
      rw [hText] at hHead
      cases hHead
    | cons c tail =>
      rw [hText] at hHead
      exact ⟨tail, by rw [Option.some.inj hHead]⟩
  rw [textOf_cons, hKind, hy] at hNext
  have hOpen : (textOf ys).head? ≠ some '\'' := (Lexeme.next_eq_string_iff.1 hNext).1
  have hNew : Lexeme.next d before ('\'' :: (body ++ ['\'']) ++ textOf ys) =
      .accept .string ('\'' :: (body ++ ['\''])).length :=
    Lexeme.next_eq_string_iff.2 ⟨hOpen, body, hBody, rfl⟩
  have hE : Exchange (textOf (y :: ys)) ('\'' :: (body ++ ['\'']) ++ textOf ys) := by
    rw [textOf_cons, hy]
    exact .same (Or.inr rfl) _ _
  refine h.replace hd hBare hReads (List.cons_ne_nil _ _) hE ?_ ?_ (by decide) (by decide) ?_
  · intro hBrace
    cases hBrace
  · rw [lexemes_append (List.cons_ne_nil _ _) (by decide) hNew, ← hKind, hAfter]
  · rw [hKind]
    intro hPart
    cases hPart

/-- **No value breaks out of its string.**  In a source without diagnostics in
which no special variable stands right before a quote, a string between
apostrophes is replaced by the string with any other value, encoded.  There are no
diagnostics then either, and the kinds of all tokens stay the same, whatever the
value is, as long as no placeholder opens in it. -/
theorem scan_replace_string (d : Dialect) (hd : d.Valid) (source value : List Char) (t : Token)
    (hClean : (d.scan source).diagnostics = [])
    (hApart : VariablesApart source (d.scan source).tokens) (hMem : t ∈ (d.scan source).tokens)
    (hKind : t.kind = .string) (hHead : (t.text source).head? = some '\'')
    (hValue : ¬['{', '{'] <:+: value) :
    (d.scan (t.replace source (QuotePlan.literal (d.on .backslashEscapes) value))).diagnostics =
        [] ∧
      (d.scan (t.replace source (QuotePlan.literal (d.on .backslashEscapes) value))).kinds =
        (d.scan source).kinds := by
  have hFaultless := faultless_of_diagnostics hClean
  obtain ⟨before, after, hTokens⟩ := List.append_of_mem hMem
  obtain ⟨xs, y, ys, hLexemes, -, hy, hText, -, hReplace⟩ := hFaultless.exists_lexeme hTokens
  rw [hLexemes] at hFaultless
  rw [hy] at hKind
  rw [hText] at hHead
  have hNew := hFaultless.replace_string hd hApart.bare hKind hHead
    (QuotePlan.body_encode (d.on .backslashEscapes) hValue)
  rw [hReplace, QuotePlan.literal, Quoted.literal]
  refine ⟨hNew.diagnostics_eq_nil, ?_⟩
  rw [TokenStream.kinds, TokenStream.kinds, hNew.tokens_eq, hFaultless.tokens_eq, kind_tokensAt,
    kind_tokensAt, List.map_append, List.map_append, List.map_cons, List.map_cons, hKind]
  rfl

/-- A value that would end its string and start a comment, if it were not
encoded. -/
theorem scan_replace_string_comment :
    (⟨.string, ⟨1, 4, 1, 2⟩⟩ : Token) ∈ (Preset.mysql.rules.scan "='a';".toList).tokens ∧
      (Preset.mysql.rules.scan
        (Token.replace "='a';".toList ⟨.string, ⟨1, 4, 1, 2⟩⟩
          (QuotePlan.literal true "\\'; -- ".toList))).diagnostics = [] ∧
      (Preset.mysql.rules.scan
        (Token.replace "='a';".toList ⟨.string, ⟨1, 4, 1, 2⟩⟩
          (QuotePlan.literal true "\\'; -- ".toList))).kinds =
        (Preset.mysql.rules.scan "='a';".toList).kinds := by
  have hMem : (⟨.string, ⟨1, 4, 1, 2⟩⟩ : Token) ∈
      (Preset.mysql.rules.scan "='a';".toList).tokens := by
    decide +kernel
  exact ⟨hMem, scan_replace_string Preset.mysql.rules (Preset.rules_valid .mysql) "='a';".toList
    "\\'; -- ".toList ⟨.string, ⟨1, 4, 1, 2⟩⟩ (by decide +kernel)
    (.of_forall (by decide +kernel)) hMem rfl (by decide +kernel) (by decide +kernel)⟩

end SqlTemplate
