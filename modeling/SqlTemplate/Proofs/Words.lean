import SqlTemplate.Proofs.BitsAndBytes
import SqlTemplate.Proofs.Dots

/-!
# Words

A word is looked up in the tables, unless a dot stands right before it or right after it: then
it is a part of a name.  The dot before it is one that has been read and not yet decided.  Once
it is decided it may be an error among the tokens, so a reader of the tokens counts stray dots
as well (`TokenStream.isDot`).

* `map_isDot_tokens`: the dots among the tokens, with the stray ones, are the dots that were
  read.
* `Lexeme.next_eq_word`: nothing but a word is read as a keyword, the name of a type or a plain
  identifier.
* `lexeme_of_word`: what stands before and after such a lexeme tells its kind.

The main statement `scan_word` speaks of the tokens of a source only.
-/

namespace SqlTemplate

open Verdict (accept reject)

variable {d : Dialect}

/-! ### Dots that are read and dots that are left -/

/-- Whether the lexeme is a dot, also a stray one. -/
def Lexeme.isDot (x : Lexeme) : Bool :=
  x.verdict == accept .dot || x.verdict == reject .strayDot

/-- Whether the token is a dot or the error that a stray dot is. -/
def TokenStream.isDot (s : TokenStream) (t : Token) : Bool :=
  t.kind == .dot || (t.kind == .error && s.diagnostics.contains ⟨.strayDot, t.span⟩)

theorem Lexeme.settled_isDot (between : Bool) (x : Lexeme) :
    (x.settled between).isDot = x.isDot := by
  rcases x.settled_cases between with hSelf | ⟨text, rfl, -, hStray⟩
  · rw [hSelf]
  · rw [hStray]
    rfl

/-- Deciding the dots makes no dot and takes none away. -/
theorem isDot_settleDots (before : Option TokenKind) (xs : List Lexeme) :
    (settleDots before xs).map Lexeme.isDot = xs.map Lexeme.isDot := by
  induction xs generalizing before with
  | nil => rfl
  | cons x xs ih => rw [settleDots_cons, List.map_cons, ih, Lexeme.settled_isDot, List.map_cons]

/-- While the lexemes are read, no dot is rejected as a stray one. -/
theorem verdict_ne_strayDot (d : Dialect) (before : Option TokenKind) (text : List Char) :
    ∀ x ∈ lexemes d before text, x.verdict ≠ reject .strayDot := by
  apply forall_mem_lexemes
  · intro before c rest hStray
    change (Lexeme.next d before (c :: rest)).verdict = _ at hStray
    rcases Lexeme.next_cases d before (c :: rest) with ⟨f, -, hVerdict⟩ | hNext
    · rw [hStray] at hVerdict
      cases f <;> exact absurd hVerdict (by decide)
    · rw [hNext] at hStray
      cases hStray
  · intro count c rest hStray
    have hVerdict := Region.next_verdict d count c rest
    change (Region.next d count (c :: rest)).verdict = _ at hStray
    rw [hStray] at hVerdict
    exact absurd hVerdict (by decide)
  · decide

theorem isDot_lexemes (d : Dialect) (before : Option TokenKind) (text : List Char) :
    (lexemes d before text).map Lexeme.isDot =
      (lexemes d before text).map (fun x => x.kind == .dot) := by
  refine List.map_congr_left fun x hx => ?_
  have hStray := verdict_ne_strayDot d before text x hx
  rw [Lexeme.isDot, beq_eq_false_iff_ne.2 hStray, Bool.or_false, Bool.eq_iff_iff, beq_iff_eq,
    beq_iff_eq, Lexeme.kind, Verdict.kind_eq_iff (by decide)]

/-- Dots among the tokens are dots among the lexemes. -/
theorem isDot_token {source : List Char} {us vs : List Lexeme} {x : Lexeme}
    (h : settledLexemes d source = us ++ x :: vs) :
    (d.scan source).isDot ⟨x.kind, Span.ofText (Position.start.advance (textOf us)) x.text⟩ =
      x.isDot := by
  have hExplained : x.Explained := explained_of_mem_settledLexemes d source x (by simp [h])
  rw [TokenStream.isDot, Lexeme.isDot, Bool.eq_iff_iff]
  simp only [Bool.or_eq_true, Bool.and_eq_true, beq_iff_eq, List.contains_iff_mem]
  cases hx : x.verdict with
  | accept kind =>
    have hError : x.kind ≠ .error := by
      rw [Ne, hExplained.kind_eq_error_iff, hx]
      simp
    simp only [hError, false_and, or_false]
    simp [Lexeme.kind, hx, Verdict.kind]
  | reject fault =>
    rw [mem_diagnostics_iff h hx]
    simp [Lexeme.kind, hx, Verdict.kind, eq_comm]

theorem map_isDot_tokensAt {source : List Char} {us vs : List Lexeme}
    (h : settledLexemes d source = us ++ vs) :
    (tokensAt (Position.start.advance (textOf us)) vs).map (d.scan source).isDot =
      vs.map Lexeme.isDot := by
  induction vs generalizing us with
  | nil => rfl
  | cons x vs ih =>
    have hSplit : settledLexemes d source = (us ++ [x]) ++ vs := by
      rw [h, List.append_assoc, List.singleton_append]
    have hRest := ih hSplit
    rw [textOf_append, textOf_cons, textOf_nil, List.append_nil, Position.advance_append] at hRest
    rw [tokensAt_cons, List.map_cons, hRest, isDot_token h, List.map_cons]

/-- **The dots among the tokens**, with the stray ones, are the dots that were read. -/
theorem map_isDot_tokens (d : Dialect) (source : List Char) :
    (d.scan source).tokens.map (d.scan source).isDot =
      (lexemes d none source).map (fun x => x.kind == .dot) := by
  have hSettled : (settledLexemes d source).map Lexeme.isDot =
      (lexemes d none source).map (fun x => x.kind == .dot) :=
    (isDot_settleDots none _).trans (isDot_lexemes d none source)
  rw [← hSettled, tokens_scan]
  exact @map_isDot_tokensAt d source [] _ rfl

/-! ### Reading a word -/

/-- A run of word characters stops before another character. -/
theorem Text.forall_of_wordRun {w rest : List Char} (h : wordRun (w ++ rest) = w.length) :
    w.all isWordChar = true ∧ rest.head?.any isWordChar = false := by
  have hTake := take_run isWordChar (w ++ rest)
  have hStop := head?_drop_run isWordChar (w ++ rest)
  have hLength : ((w ++ rest).takeWhile isWordChar).length = w.length := h
  rw [hLength, List.take_left] at hTake
  rw [hLength, List.drop_left] at hStop
  refine ⟨?_, hStop⟩
  rw [hTake]
  exact List.all_takeWhile

/-- The kinds of words. -/
def TokenKind.wordKinds : List TokenKind := [.keyword, .typeName, .identifier]

/-- **Only words are read as words.** -/
theorem Lexeme.next_eq_word {before : Option TokenKind} {text : List Char}
    (h : (next d before text).kind ∈ TokenKind.wordKinds) :
    Symbol.word? d before text = some (next d before text) := by
  rcases next_cases d before text with ⟨f, hFound, hVerdict⟩ | hNext
  · have hForm : f = .word := by
      have hForms : ∀ v ∈ f.verdicts, v.kind ∈ TokenKind.wordKinds → f = .word := by
        cases f <;> decide
      exact hForms _ hVerdict h
    subst hForm
    exact hFound
  · rw [hNext] at h
    exact absurd h (by decide)

theorem Symbol.eq_of_word? {before : Option TokenKind} {text : List Char} {m : Match}
    (h : word? d before text = some m) :
    Text.startsWord text = true ∧ m = .accept (wordKindAt d before text) (Text.wordRun text) := by
  cases text with
  | nil => cases h
  | cons c rest =>
    rw [word?, Option.ite_none_right_eq_some, Option.some.injEq] at h
    exact ⟨h.1, h.2.symm⟩

/-- A word goes on as far as there are word characters. -/
theorem Text.isWord_of_wordRun {w rest : List Char} (hStart : startsWord (w ++ rest) = true)
    (hRun : wordRun (w ++ rest) = w.length) : isWord w = true := by
  obtain ⟨hAll, hStop⟩ := forall_of_wordRun hRun
  refine isWord_iff.2 ⟨?_, wordRun_eq_length_iff.2 hAll⟩
  cases w with
  | cons c w => exact hStart
  | nil =>
    -- no word character is next, so no word starts there
    cases rest with
    | nil => cases hStart
    | cons c rest =>
      rw [List.head?_cons, Option.any_some] at hStop
      rw [List.nil_append, startsWord] at hStart
      rw [isWordChar_of_isWordStart hStart] at hStop
      cases hStop

/-- A dot after a plain identifier is read by itself. -/
theorem head?_lexemes_dot (hd : d.Valid) {text : List Char} (h : text.head? = some '.') :
    (lexemes d (some .identifier) text).head?.any (·.kind == .dot) = true := by
  obtain ⟨rest, rfl⟩ := List.head?_eq_some_iff.1 h
  have hNext : Lexeme.next d (some .identifier) ('.' :: rest) = .accept .dot 1 := by
    rw [Lexeme.next_dot hd, if_neg]
    exact fun hNumber => by cases hNumber.2
  rw [lexemes_of_plain (List.cons_ne_nil _ _) (by rw [hNext]; simp), hNext]
  rfl

/-- **What tells the kind of a word**: the character after it, the lexeme before it, and the
tables.  A dot after it is read by itself. -/
theorem lexeme_of_word (hd : d.Valid) {source : List Char} {xs ys : List Lexeme} {x : Lexeme}
    (h : lexemes d none source = xs ++ x :: ys) (hKind : x.kind ∈ TokenKind.wordKinds) :
    Text.isWord x.text = true ∧ (textOf ys).head?.any Text.isWordChar = false ∧
      x.kind = (if (textOf ys).head? = some '.' ∨ xs.getLast?.any (·.kind == .dot) = true then
        .identifier else d.wordKind x.text) ∧
      ((textOf ys).head? = some '.' → ys.head?.any (·.kind == .dot) = true) := by
  have hOuter : x.kind.isOuter = true := by
    have hKinds : ∀ kind ∈ TokenKind.wordKinds, kind.isOuter = true := by decide
    exact hKinds _ hKind
  -- the place where `x` is read, and the step made there
  obtain ⟨after, hReads, hStep, hRest⟩ := Lexeme.exists_place hOuter h
  have hWord : Symbol.word? d after (x.text ++ textOf ys) =
      some (.accept x.kind x.text.length) := by
    rw [← textOf_cons, ← hStep]
    refine Lexeme.next_eq_word ?_
    rw [hStep]
    exact hKind
  obtain ⟨hStart, hMatch⟩ := Symbol.eq_of_word? hWord
  have hRun : x.text.length = Text.wordRun (x.text ++ textOf ys) := congrArg Match.length hMatch
  have hAfter : after = some .dot ↔ xs.getLast?.any (·.kind == .dot) = true := by
    have hLast : after = (xs.map Lexeme.kind).getLast? := hReads.after_eq
    rw [hLast, List.getLast?_map]
    cases xs.getLast? <;> simp
  have hTables : x.kind = if (textOf ys).head? = some '.' ∨
      xs.getLast?.any (·.kind == .dot) = true then .identifier else d.wordKind x.text := by
    have hKindAt : x.kind = Symbol.wordKindAt d after (x.text ++ textOf ys) :=
      congrArg Match.kind hMatch
    rw [Symbol.wordKindAt, ← hRun, List.drop_left, List.take_left] at hKindAt
    simp only [Bool.or_eq_true, beq_iff_eq, hAfter] at hKindAt
    exact hKindAt
  refine ⟨Text.isWord_of_wordRun hStart hRun.symm, (Text.forall_of_wordRun hRun.symm).2, hTables,
    fun hDot => ?_⟩
  rw [if_pos (Or.inl hDot)] at hTables
  rw [← hRest, hTables]
  exact head?_lexemes_dot hd hDot

/-! ### Words among the tokens -/

/-- A decided lexeme, unless it is an error, is one that was read. -/
theorem exists_of_settledLexemes {source : List Char} {us vs : List Lexeme} {x : Lexeme}
    (h : settledLexemes d source = us ++ x :: vs) (hKind : x.kind ≠ .error) :
    ∃ xs ys, lexemes d none source = xs ++ x :: ys ∧ us.length = xs.length ∧
      source = textOf us ++ (x.text ++ textOf ys) := by
  obtain ⟨xs, y, ys, hLexemes, hTexts, -, rfl⟩ := exists_of_settleDots_append h
  rw [Lexeme.settled_eq_self hKind]
  have hLength := congrArg List.length hTexts
  rw [List.length_map, List.length_map] at hLength
  refine ⟨xs, ys, hLexemes, hLength.symm, ?_⟩
  rw [← textOf_congr hTexts, ← textOf_cons, ← textOf_append, ← hLexemes]
  exact (text_lexemes d none source).symm

/-- **Words are classified by the tables, unless a dot stands beside them.**  A token that is a
keyword, the name of a type or a plain identifier is a word, and no word character follows it.
With a dot after it, or a dot before it, also a stray one, it is an identifier; otherwise the
tables say what it is.  If a dot follows, the next token is a dot or a stray one. -/
theorem scan_word (d : Dialect) (hd : d.Valid) (source : List Char) (before after : List Token)
    (t : Token) (hTokens : (d.scan source).tokens = before ++ t :: after)
    (hKind : t.kind ∈ TokenKind.wordKinds) :
    Text.isWord (t.text source) = true ∧
      (Text.dropBytes t.span.stop source).head?.any Text.isWordChar = false ∧
      t.kind = (if (Text.dropBytes t.span.stop source).head? = some '.' ∨
          before.getLast?.any (d.scan source).isDot = true then .identifier
        else if Text.upper (t.text source) ∈ d.keywords then .keyword
        else if Text.upper (t.text source) ∈ d.typeNames then .typeName
        else .identifier) ∧
      ((Text.dropBytes t.span.stop source).head? = some '.' →
        after.head?.any (d.scan source).isDot = true) := by
  have hDots := map_isDot_tokens d source
  rw [hTokens] at hDots
  rw [scan_eq] at hTokens
  obtain ⟨us, ws, hSettled, hUs, hWs⟩ := tokensAt_eq_append_iff.1 hTokens
  obtain ⟨x, vs, rfl, rfl, -⟩ := tokensAt_eq_cons_iff.1 hWs
  have hAccepted : x.kind ≠ .error := by
    have hKinds : ∀ kind ∈ TokenKind.wordKinds, kind ≠ .error := by decide
    exact hKinds _ hKind
  obtain ⟨xs, ys, hLexemes, hLength, hSource⟩ := exists_of_settledLexemes hSettled hAccepted
  -- the two sides of the token are those of the lexeme
  obtain ⟨hBefore, hAfter⟩ : before.map (d.scan source).isDot = xs.map (·.kind == .dot) ∧
      after.map (d.scan source).isDot = ys.map (·.kind == .dot) := by
    rw [hLexemes, List.map_append, List.map_append, List.map_cons, List.map_cons] at hDots
    have hSame : before.length = xs.length := by rw [← hUs, length_tokensAt, hLength]
    obtain ⟨hBefore, hRest⟩ :=
      List.append_inj hDots (by rw [List.length_map, List.length_map, hSame])
    exact ⟨hBefore, (List.cons.inj hRest).2⟩
  have hRest : Text.dropBytes
      (Span.ofText (Position.start.advance (textOf us)) x.text).stop source = textOf ys := by
    rw [Span.ofText, start_advance_offset, ← Text.byteLength_append, hSource, ← List.append_assoc,
      Text.dropBytes_append]
  obtain ⟨hWord, hStop, hTables, hNext⟩ := lexeme_of_word hd hLexemes hKind
  rw [text_of_settledLexemes hSettled, hRest, any_getLast?_congr hBefore, any_head?_congr hAfter]
  refine ⟨hWord, hStop, ?_, hNext⟩
  simpa only [Dialect.wordKind, Dialect.isKeyword, Dialect.isTypeName,
    List.contains_iff_mem] using hTables

/-- A word of the keyword table between two dots is an identifier, although both dots are stray
ones. -/
theorem scan_word_betweenStrayDots :
    (Preset.standard.rules.scan ".select.5".toList).tokens =
        [⟨.error, ⟨0, 1, 1, 1⟩⟩] ++ ⟨.identifier, ⟨1, 7, 1, 2⟩⟩ ::
          [⟨.error, ⟨7, 8, 1, 8⟩⟩, ⟨.number, ⟨8, 9, 1, 9⟩⟩] ∧
      Text.isWord (Token.text ".select.5".toList ⟨.identifier, ⟨1, 7, 1, 2⟩⟩) = true ∧
      (Preset.standard.rules.scan ".select.5".toList).isDot ⟨.error, ⟨7, 8, 1, 8⟩⟩ = true := by
  have hTokens : (Preset.standard.rules.scan ".select.5".toList).tokens =
      [⟨.error, ⟨0, 1, 1, 1⟩⟩] ++ ⟨.identifier, ⟨1, 7, 1, 2⟩⟩ ::
        [⟨.error, ⟨7, 8, 1, 8⟩⟩, ⟨.number, ⟨8, 9, 1, 9⟩⟩] := by
    decide +kernel
  obtain ⟨hWord, -, -, hNext⟩ := scan_word Preset.standard.rules (Preset.rules_valid .standard)
    ".select.5".toList _ _ _ hTokens (by decide)
  exact ⟨hTokens, hWord, hNext (by decide +kernel)⟩

end SqlTemplate
