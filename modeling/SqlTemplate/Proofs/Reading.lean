import SqlTemplate.Proofs.Diagnosis
import SqlTemplate.Proofs.Stability
import SqlTemplate.Proofs.Statements

/-!
# Reading up to a place

`Reads` says that reading goes from one place in a text to another and gives
certain lexemes on the way.  Between two lexemes outside quoted regions there is
always such a place (`Lexeme.exists_place`), and reading goes on from it as if the
text began there.  What the first lexeme there is, its first character often says
alone (`Lexeme.next_of_mark`, `Lexeme.next_of_startsOpen`).

The main statement is `Reads.exchange`: if nothing before the place is rejected,
the same lexemes are read when the text after the place is exchanged.  For the
lexemes outside quoted regions this is `Lexeme.next_stable` step by step.  A
quoted region without faults is one placeholder between its quotes, and such a
region is read the same way whatever stands after it (`Region.scan_isForm`).  A
source without diagnostics is `Faultless`, and such a source has a place before
every token outside its regions.
-/

namespace SqlTemplate

open Verdict (accept reject)

variable {d : Dialect}

/-! ### One lexeme -/

namespace Symbol

/-- The characters that are tokens by themselves. -/
def marks : List Char := ['.', ';', ',', '(', ')', '[', ']', '{', '}']

theorem mem_marks {c : Char} {kind : TokenKind} (h : punctuationKind? c = some kind) :
    c ∈ marks := by
  simp only [marks, List.mem_cons, List.not_mem_nil, or_false]
  grind [punctuationKind?]

/-- An identifier between quotes ends at its quote, if no second one follows. -/
theorem quotedIdentifier?_body {quote : Char} {body rest : List Char}
    (hQuote : quote ∈ d.identifierQuotes) (hBody : Quoted.Body quote false body)
    (hHead : rest.head? ≠ some quote) :
    quotedIdentifier? d (quote :: (body ++ quote :: rest)) =
      some (.accept .quotedIdentifier (body.length + 2)) := by
  have hRun := Quoted.closing?_body (fun hOn => by cases hOn) hBody hHead
  simp only [quotedIdentifier?, Dialect.isIdentifierQuote, List.contains_iff_mem.2 hQuote, if_true,
    delimited, Quoted.length?, List.tail_cons, hRun, Option.map_some]

end Symbol

/-- **The first character tells the form.** -/
theorem Literal.match?_cons (d : Dialect) (c : Char) (rest : List Char) :
    Literal.match? d (c :: rest) =
      if c = '0' then Literal.radix? (c :: rest)
      else if c.toLower = 'b' then Literal.bits? d (c :: rest)
      else if c.toLower = 'x' then Literal.hex? (c :: rest)
      else if c.toLower = 'e' then Literal.escape? (c :: rest)
      else if c.toLower = 'n' then Literal.national? d (c :: rest)
      else if c = '_' then Literal.charset? d (c :: rest)
      else Literal.dollar? d (c :: rest) := by
  have hRadix : c ≠ '0' → radix? (c :: rest) = none := fun hc => by simp [radix?, hc]
  have hBits : c.toLower ≠ 'b' → bits? d (c :: rest) = none := fun hc => by
    unfold bits?
    split <;> simp_all
  have hHex : c.toLower ≠ 'x' → hex? (c :: rest) = none := fun hc => by
    unfold hex?
    split <;> simp_all
  have hEscape : c.toLower ≠ 'e' → escape? (c :: rest) = none := fun hc => by
    unfold escape?
    split <;> simp_all
  have hNational : c.toLower ≠ 'n' → national? d (c :: rest) = none := fun hc => by
    unfold national?
    split <;> simp_all
  have hCharset : c ≠ '_' → charset? d (c :: rest) = none := fun hc => by simp [charset?, hc]
  have hDollar : c ≠ '$' → dollar? d (c :: rest) = none := fun hc => by simp [dollar?, hc]
  have hMarks : c.toLower ∈ ['b', 'x', 'e', 'n'] → c ≠ '_' ∧ c ≠ '$' := fun hLetter => by
    constructor <;> rintro rfl <;> exact absurd hLetter (by decide)
  simp only [match?, Recogniser.firstOf, forms, List.findSome?_cons, List.findSome?_nil]
  by_cases hZero : c = '0'
  · subst hZero
    rw [hBits (by decide), hHex (by decide), hEscape (by decide), hNational (by decide),
      hCharset (by decide), hDollar (by decide)]
    cases radix? _ <;> rfl
  · rw [hRadix hZero, if_neg hZero]
    by_cases hLetter : c.toLower ∈ ['b', 'x', 'e', 'n']
    · rw [hCharset (hMarks hLetter).1, hDollar (hMarks hLetter).2]
      simp only [List.mem_cons, List.not_mem_nil, or_false] at hLetter
      rcases hLetter with hc | hc | hc | hc
      · rw [hHex (by simp [hc]), hEscape (by simp [hc]), hNational (by simp [hc]), if_pos hc]
        cases bits? d _ <;> rfl
      · rw [hBits (by simp [hc]), hEscape (by simp [hc]), hNational (by simp [hc]), hc]
        cases hex? _ <;> rfl
      · rw [hBits (by simp [hc]), hHex (by simp [hc]), hNational (by simp [hc]), hc]
        cases escape? _ <;> rfl
      · rw [hBits (by simp [hc]), hHex (by simp [hc]), hEscape (by simp [hc]), hc]
        cases national? d _ <;> rfl
    · simp only [List.mem_cons, List.not_mem_nil, or_false, not_or] at hLetter
      obtain ⟨hb, hx, he, hn⟩ := hLetter
      rw [hBits hb, hHex hx, hEscape he, hNational hn, if_neg hb, if_neg hx, if_neg he, if_neg hn]
      by_cases hLine : c = '_'
      · rw [hDollar (by rw [hLine]; decide), if_pos hLine]
        cases charset? d _ <;> rfl
      · rw [hCharset hLine, if_neg hLine]
        cases dollar? d _ <;> rfl

/-- Literals other than dollar quotes start with a letter, a zero or an underscore. -/
theorem Literal.match?_eq_dollar? {c : Char} (hFirst : c ∉ ['0', '_'])
    (hLetter : c.toLower ∉ ['b', 'x', 'e', 'n']) (rest : List Char) :
    Literal.match? d (c :: rest) = Literal.dollar? d (c :: rest) := by
  simp only [List.mem_cons, List.not_mem_nil, or_false, not_or] at hFirst hLetter
  obtain ⟨hZero, hLine⟩ := hFirst
  obtain ⟨hb, hx, he, hn⟩ := hLetter
  rw [match?_cons, if_neg hZero, if_neg hb, if_neg hx, if_neg he, if_neg hn, if_neg hLine]

/-- The first characters of literals. -/
theorem Literal.match?_eq_none {c : Char} (hFirst : c ∉ ['0', '_', '$'])
    (hLetter : c.toLower ∉ ['b', 'x', 'e', 'n']) (rest : List Char) :
    Literal.match? d (c :: rest) = none := by
  simp only [List.mem_cons, List.not_mem_nil, or_false, not_or] at hFirst
  rw [match?_eq_dollar? (by simp [hFirst]) hLetter]
  simp [Literal.dollar?, hFirst.2.2]

/-- The forms that are tried after the comments. -/
def Lexeme.lateForms (d : Dialect) (before : Option TokenKind) : List Recogniser :=
  [Symbol.string? d, Symbol.quotedIdentifier? d, Symbol.number? before, Symbol.specialVariable? d,
   Symbol.punctuation?, Symbol.operator? d, Symbol.word? d before]

/-- What is tried where no whitespace, placeholder, string, literal or comment
starts. -/
theorem Lexeme.next_eq_lateForms {before : Option TokenKind} {c : Char} {rest : List Char}
    (hSpace : Text.isSpace c = false) (hQuote : c ≠ '\'')
    (hOpen : Placeholder.startsOpen (c :: rest) = false)
    (hClose : Placeholder.startsClose (c :: rest) = false)
    (hLiteral : Literal.match? d (c :: rest) = none)
    (hLine : Comment.startsLine d (c :: rest) = false)
    (hBlock : Comment.startsBlock (c :: rest) = false) :
    next d before (c :: rest) =
      (Recogniser.firstOf (lateForms d before) (c :: rest)).getD
        (.reject .unexpectedCharacter 1) := by
  simp [next, Recogniser.firstOf, forms, lateForms, Symbol.whitespace?, hSpace, Placeholder.match?,
    hOpen, Placeholder.unmatchedClose?, hClose, Region.apostrophe?, hQuote, hLiteral,
    Comment.line?, hLine, Comment.block?, hBlock]

/-- A character with which no placeholder, string or comment starts, at the head of a
text that starts with no literal. -/
theorem Lexeme.next_of_not_literal {before : Option TokenKind} {c : Char} {rest : List Char}
    (hSpace : Text.isSpace c = false) (hFirst : c ∉ ['\'', '-', '#', '/'])
    (hLiteral : Literal.match? d (c :: rest) = none)
    (hOpen : Placeholder.startsOpen (c :: rest) = false)
    (hClose : Placeholder.startsClose (c :: rest) = false) :
    next d before (c :: rest) =
      (Recogniser.firstOf (lateForms d before) (c :: rest)).getD
        (.reject .unexpectedCharacter 1) := by
  simp only [List.mem_cons, List.not_mem_nil, or_false, not_or] at hFirst
  obtain ⟨hQuote, hDash, hHash, hSlash⟩ := hFirst
  have hLine : Comment.startsLine d (c :: rest) = false := by
    rw [Comment.startsLine_cons]
    simp [hDash, hHash, hSlash]
  have hBlock : Comment.startsBlock (c :: rest) = false := by
    cases rest <;> simp [Comment.startsBlock, Brackets.startsWith, Brackets.comment, hSlash]
  exact next_eq_lateForms hSpace hQuote hOpen hClose hLiteral hLine hBlock

/-- A character with which no placeholder, string, literal or comment starts. -/
theorem Lexeme.next_eq_late {before : Option TokenKind} {c : Char} {rest : List Char}
    (hSpace : Text.isSpace c = false) (hFirst : c ∉ ['\'', '-', '#', '/', '0', '_', '$'])
    (hLetter : c.toLower ∉ ['b', 'x', 'e', 'n'])
    (hOpen : Placeholder.startsOpen (c :: rest) = false)
    (hClose : Placeholder.startsClose (c :: rest) = false) :
    next d before (c :: rest) =
      (Recogniser.firstOf (lateForms d before) (c :: rest)).getD
        (.reject .unexpectedCharacter 1) := by
  have hSplit : c ∉ ['\'', '-', '#', '/'] ∧ c ∉ ['0', '_', '$'] :=
    not_or.1 fun hMem => hFirst (List.mem_append.2 hMem)
  exact next_of_not_literal hSpace hSplit.1 (Literal.match?_eq_none hSplit.2 hLetter rest) hOpen
    hClose

/-- **A mark is a token by itself**, unless it belongs to the braces of a
placeholder or to a number. -/
theorem Lexeme.next_of_mark (hd : d.Valid) {before : Option TokenKind} {c : Char}
    {rest : List Char} {kind : TokenKind} (hKind : Symbol.punctuationKind? c = some kind)
    (hOpen : Placeholder.startsOpen (c :: rest) = false)
    (hClose : Placeholder.startsClose (c :: rest) = false)
    (hNumber : Symbol.number? before (c :: rest) = none) :
    next d before (c :: rest) = .accept kind 1 := by
  have hFacts : (Symbol.marks.all fun c => decide (Text.isSpace c = false ∧ c ≠ '"' ∧
      c ∉ ['\'', '-', '#', '/', '0', '_', '$'] ∧ c.toLower ∉ ['b', 'x', 'e', 'n'] ∧
      Dialect.isReserved c = true)) = true := by
    decide
  obtain ⟨hSpace, hDouble, hFirst, hLetter, hReserved⟩ :=
    of_decide_eq_true (List.all_eq_true.1 hFacts c (Symbol.mem_marks hKind))
  rw [next_eq_late hSpace hFirst hLetter hOpen hClose]
  simp [Recogniser.firstOf, lateForms, Symbol.string?, hDouble, Symbol.quotedIdentifier?,
    hd.not_identifierQuote hReserved, hNumber, Symbol.specialVariable?, hd.not_variable hReserved,
    Symbol.punctuation?, hKind]

theorem Lexeme.next_of_startsOpen (d : Dialect) (before : Option TokenKind) {text : List Char}
    (h : Placeholder.startsOpen text = true) : next d before text = Placeholder.scan d text := by
  obtain ⟨rest, rfl⟩ := Placeholder.startsOpen_iff.1 h
  have hSpace : Symbol.whitespace? ('{' :: '{' :: rest) = none :=
    Region.whitespace?_eq_none (by decide)
  simp [next, Recogniser.firstOf, forms, hSpace, Placeholder.match?, h]

/-- The lexeme at the head of a text is read first. -/
theorem lexemes_append {before : Option TokenKind} {text rest : List Char} {kind : TokenKind}
    (hText : text ≠ []) (hQuote : kind ≠ .regionQuote)
    (h : Lexeme.next d before (text ++ rest) = .accept kind text.length) :
    lexemes d before (text ++ rest) = ⟨text, accept kind⟩ :: lexemes d (some kind) rest := by
  have hNe : text ++ rest ≠ [] := by simp [hText]
  have hVerdict : (Lexeme.next d before (text ++ rest)).verdict ≠ accept .regionQuote := by
    rw [h, Match.accept_verdict, ne_eq, Verdict.accept.injEq]
    exact hQuote
  rw [lexemes_of_plain hNe hVerdict, h, Match.lexeme, Match.accept_length, List.take_left,
    List.drop_left]
  rfl

/-! ### Quoted regions without faults -/

namespace Region

/-- Whitespace inside a region is read by itself. -/
theorem scan_append_spaces (d : Dialect) (count : Nat) {w : List Char}
    (hw : ∀ c ∈ w, Text.isSpace c = true) :
    ∃ xs, ∀ rest : List Char, (∀ c, rest.head? = some c → Text.isSpace c = false) →
      scan d count (w ++ rest) =
        ⟨xs ++ (scan d count rest).lexemes, (scan d count rest).after⟩ := by
  cases w with
  | nil => exact ⟨[], fun rest _ => rfl⟩
  | cons c w =>
    refine ⟨[⟨c :: w, accept .whitespace⟩], fun rest hRest => ?_⟩
    have hSpace := hw c List.mem_cons_self
    have hRun : Text.spaceRun (c :: (w ++ rest)) = (c :: w).length :=
      Placeholder.spaceRun_append hw hRest
    have hNext : next d count (c :: (w ++ rest)) = .accept .whitespace (c :: w).length := by
      rw [next_of_isSpace d count hSpace, hRun]
    have hLexeme : (Match.accept .whitespace (c :: w).length).lexeme (c :: w ++ rest) =
        ⟨c :: w, accept .whitespace⟩ := by
      rw [Match.lexeme, Match.accept_length, List.take_left]
      rfl
    have hDrop : (c :: w ++ rest).drop (c :: w).length = rest := List.drop_left
    rw [List.cons_append, scan_of_inner (List.cons_ne_nil _ _) (by rw [hNext]; simp), hNext,
      startsOpen_of_isSpace hSpace, ← List.cons_append, hLexeme, Match.accept_length, hDrop]
    rfl

/-- The first placeholder of a region is read by itself. -/
theorem scan_append_isWhole {p : List Char} (hp : Placeholder.IsWhole d p) (rest : List Char) :
    scan d 0 (p ++ rest) =
      ⟨⟨p, accept .placeholder⟩ :: (scan d 1 rest).lexemes, (scan d 1 rest).after⟩ := by
  have hMatch := (Placeholder.match?_append_iff rest).2 hp
  simp only [Placeholder.match?, Option.ite_none_right_eq_some, Option.some.injEq] at hMatch
  obtain ⟨hOpen, hScan⟩ := hMatch
  have hNext : next d 0 (p ++ rest) = .accept .placeholder p.length := by
    rw [next_of_startsOpen d 0 hOpen, hScan]
    rfl
  have hNe : p ++ rest ≠ [] := by
    intro hNil
    rw [hNil] at hOpen
    cases hOpen
  rw [scan_of_inner hNe (by rw [hNext]; simp), hNext, if_pos hOpen, Match.accept_length,
    List.drop_left, Match.lexeme, Match.accept_length, List.take_left]
  rfl

theorem head_of_isWhole {p : List Char} (hp : Placeholder.IsWhole d p) :
    ∃ rest, p = '{' :: '{' :: rest := by
  unfold Placeholder.IsWhole at hp
  simp only [Placeholder.match?, Option.ite_none_right_eq_some] at hp
  exact Placeholder.startsOpen_iff.1 hp.1

/-- **A region without faults is read the same way** whatever stands after it. -/
theorem scan_isForm {text : List Char} (h : IsForm d text) :
    ∃ xs, ∀ after, scan d 0 (text ++ '\'' :: after) = ⟨xs, some after⟩ := by
  obtain ⟨left, p, right, rfl, hLeft, hp, hRight⟩ := h
  obtain ⟨tail, rfl⟩ := head_of_isWhole hp
  obtain ⟨xs, hxs⟩ := scan_append_spaces d 0 hLeft
  obtain ⟨ys, hys⟩ := scan_append_spaces d 1 hRight
  refine ⟨xs ++ ⟨'{' :: '{' :: tail, accept .placeholder⟩ :: (ys ++ [Lexeme.quote]),
    fun after => ?_⟩
  have hQuote : ∀ c, ('\'' :: after).head? = some c → Text.isSpace c = false := by
    rintro c ⟨⟩
    decide
  have hBrace : ∀ c, ('{' :: '{' :: tail ++ (right ++ '\'' :: after)).head? = some c →
      Text.isSpace c = false := by
    rintro c ⟨⟩
    decide
  rw [List.append_assoc, List.append_assoc, hxs _ hBrace, scan_append_isWhole hp, hys _ hQuote,
    scan_of_close (fun h => by cases h)]

/-- The quote before such a region opens a region. -/
theorem ofText_isForm {escapes : Bool} {text : List Char} (h : IsForm d text) (after : List Char) :
    QuotePlan.ofText escapes (text ++ after) = .region := by
  obtain ⟨left, p, right, rfl, hLeft, hp, -⟩ := h
  obtain ⟨tail, rfl⟩ := head_of_isWhole hp
  rw [List.append_assoc, List.append_assoc]
  have hBrace : ∀ c, ('{' :: '{' :: tail ++ (right ++ after)).head? = some c →
      Text.isSpace c = false := by
    rintro c ⟨⟩
    decide
  rw [← QuotePlan.ofText_drop_spaceRun, Placeholder.spaceRun_append hLeft hBrace, List.drop_left]
  exact QuotePlan.ofText_of_startsOpen (Placeholder.startsOpen_iff.2 ⟨_, rfl⟩)

end Region

/-- A region without faults has the form of one. -/
theorem Region.exists_isForm {text beyond : List Char}
    (hPlan : QuotePlan.ofText (d.on .backslashEscapes) text = .region)
    (hBeyond : (scan d 0 text).after = some beyond)
    (hClean : ∀ x ∈ (scan d 0 text).lexemes, x.kind ≠ .error) :
    ∃ inside, (scan d 0 text).lexemes = inside ++ [Lexeme.quote] ∧ IsForm d (textOf inside) ∧
      text = textOf inside ++ '\'' :: beyond := by
  obtain ⟨inside, hLexemes, hInside⟩ := exists_inside hPlan hBeyond
  refine ⟨inside, hLexemes, hInside.faultless_iff.1 fun x hx => hClean x ?_, ?_⟩
  · rw [hLexemes]
    simp [hx]
  · have hWhole := Region.text_lexemes d 0 text
    rw [hLexemes, hBeyond, List.flatMap_append] at hWhole
    rw [← hWhole]
    simp [textOf, Lexeme.quote]

/-! ### From one place to another -/

/-- Reading a text after a token of kind `before` gives these lexemes and comes to
the text `rest`, which stands after a token of kind `after`. -/
inductive Reads (d : Dialect) : Option TokenKind → List Char → List Lexeme → Option TokenKind →
    List Char → Prop
  | done (before : Option TokenKind) (text : List Char) : Reads d before text [] before text
  | plain {before after : Option TokenKind} {text rest : List Char} {xs : List Lexeme} :
      text ≠ [] → (Lexeme.next d before text).verdict ≠ accept .regionQuote →
      Reads d (some (Lexeme.next d before text).kind)
        (text.drop (Lexeme.next d before text).length) xs after rest →
      Reads d before text ((Lexeme.next d before text).lexeme text :: xs) after rest
  | region {before after : Option TokenKind} {text beyond rest : List Char} {xs : List Lexeme} :
      (Lexeme.next d before ('\'' :: text)).verdict = accept .regionQuote →
      (Region.scan d 0 text).after = some beyond →
      Reads d (some .regionQuote) beyond xs after rest →
      Reads d before ('\'' :: text)
        (Lexeme.quote :: ((Region.scan d 0 text).lexemes ++ xs)) after rest

/-- Whether a lexeme of this kind stands by itself outside quoted regions. -/
def TokenKind.isOuter (kind : TokenKind) : Bool := !kind.isInner && kind != .regionQuote

theorem TokenKind.not_isOuter_of_inner {x : Lexeme} (h : x.verdict ∈ Region.innerVerdicts) :
    x.kind.isOuter = false := by
  simp [TokenKind.isOuter, Lexeme.kind, Region.isInner_of_mem x.verdict h]

namespace Reads

variable {before after : Option TokenKind} {text rest : List Char} {xs : List Lexeme}

/-- The lexemes read on the way come first. -/
theorem lexemes_eq (h : Reads d before text xs after rest) :
    lexemes d before text = xs ++ lexemes d after rest := by
  induction h with
  | done => rfl
  | plain hText hPlain _ ih => rw [lexemes_of_plain hText hPlain, ih, List.cons_append]
  | region hQuote hBeyond _ ih =>
    rw [lexemes_of_closed hQuote hBeyond, ih, List.cons_append, List.append_assoc]

/-- Nothing of the text is lost on the way. -/
theorem textOf_append (h : Reads d before text xs after rest) : textOf xs ++ rest = text := by
  induction h with
  | done => rfl
  | plain _ _ _ ih =>
    rw [textOf_cons, List.append_assoc, ih]
    exact Match.lexeme_text_append _ _
  | @region _ _ text beyond _ _ _ hBeyond _ ih =>
    have hWhole := Region.text_lexemes d 0 text
    rw [hBeyond, Option.getD_some] at hWhole
    rw [textOf_cons, SqlTemplate.textOf_append, List.append_assoc, List.append_assoc, ih]
    exact congrArg ('\'' :: ·) hWhole

theorem text_ne_nil (h : Reads d before text xs after rest) : ∀ x ∈ xs, x.text ≠ [] := by
  intro x hx
  have hAll : ∀ y ∈ lexemes d before text, y.text ≠ [] := by
    apply forall_mem_lexemes
    · intro kind c rest
      exact Match.lexeme_text_ne_nil (Lexeme.next_pos d kind _) (List.cons_ne_nil c rest)
    · intro count c rest
      exact Match.lexeme_text_ne_nil (Region.next_pos d count c rest) (List.cons_ne_nil c rest)
    · exact List.cons_ne_nil _ _
  refine hAll x ?_
  rw [h.lexemes_eq]
  exact List.mem_append_left _ hx

/-- **Before each lexeme outside quoted regions there is a place.** -/
theorem of_lexemes {y : Lexeme} {ys : List Lexeme} (hy : y.kind.isOuter = true) :
    ∀ {text : List Char} {before : Option TokenKind} {xs : List Lexeme},
      lexemes d before text = xs ++ y :: ys →
        ∃ after, Reads d before text xs after (textOf (y :: ys)) := by
  intro text
  induction hLength : text.length using Nat.strongRecOn generalizing text with
  | ind k ih =>
    subst hLength
    intro before xs h
    by_cases hText : text = []
    · subst hText
      rw [lexemes] at h
      cases xs <;> cases h
    · by_cases hQuote : (Lexeme.next d before text).verdict = accept .regionQuote
      · obtain ⟨rest, rfl, _⟩ := Lexeme.next_eq_regionQuote hQuote
        cases hAfter : (Region.scan d 0 rest).after with
        | none =>
          rw [lexemes_of_open hQuote hAfter] at h
          have hMem : y ∈ Lexeme.openQuote :: (Region.scan d 0 rest).lexemes := by
            rw [h]
            simp
          have hInner : y.kind.isOuter = false := by
            rcases List.mem_cons.1 hMem with rfl | hIn
            · rfl
            · exact TokenKind.not_isOuter_of_inner (Region.scan_open hAfter y hIn)
          rw [hy] at hInner
          cases hInner
        | some beyond =>
          have hShort := Region.length_after_lt hAfter
          obtain ⟨inside, hLexemes, hVerdicts⟩ := Region.scan_closed hAfter
          have hNone : ∀ x ∈ Lexeme.quote :: (Region.scan d 0 rest).lexemes,
              x.kind.isOuter = false := by
            intro x hx
            rw [hLexemes, List.mem_cons, List.mem_append, List.mem_singleton] at hx
            rcases hx with rfl | hIn | rfl
            · rfl
            · exact TokenKind.not_isOuter_of_inner (hVerdicts x hIn)
            · rfl
          rw [lexemes_of_closed hQuote hAfter, ← List.cons_append] at h
          obtain ⟨more, rfl, hMore⟩ := exists_append_of_forall h hNone (by simp [hy])
          obtain ⟨after, hReads⟩ := ih _ (by rw [List.length_cons]; omega) rfl hMore
          exact ⟨after, .region hQuote hAfter hReads⟩
      · rw [lexemes_of_plain hText hQuote] at h
        cases xs with
        | nil =>
          refine ⟨before, ?_⟩
          rw [← List.nil_append (y :: ys), ← h, ← lexemes_of_plain hText hQuote,
            show textOf (lexemes d before text) = text from text_lexemes d before text]
          exact .done before text
        | cons x xs =>
          rw [List.cons_append, List.cons.injEq] at h
          obtain ⟨rfl, hRest⟩ := h
          have hPos := Lexeme.next_pos d before text
          have hCons := List.length_pos_iff.2 hText
          obtain ⟨after, hReads⟩ := ih _ (by rw [List.length_drop]; omega) rfl hRest
          exact ⟨after, .plain hText hQuote hReads⟩

end Reads

theorem Match.exists_accept {m : Match} (h : m.kind ≠ .error) : ∃ kind n, m = .accept kind n := by
  obtain ⟨n, verdict⟩ := m
  cases verdict with
  | accept kind => exact ⟨kind, n, rfl⟩
  | reject fault => exact absurd rfl h

/-- The first lexeme of a text, if it stands outside quoted regions, is what the
step at the head of the text finds. -/
theorem Lexeme.next_of_lexemes {before : Option TokenKind} {text : List Char} {y : Lexeme}
    {ys : List Lexeme} (hy : y.kind.isOuter = true) (h : lexemes d before text = y :: ys) :
    next d before text = .accept y.kind y.text.length ∧
      lexemes d (some y.kind) (textOf ys) = ys := by
  have hText : text ≠ [] := by
    rintro rfl
    rw [lexemes] at h
    cases h
  have hWhole : textOf (y :: ys) = text := by
    rw [← h]
    exact text_lexemes d before text
  by_cases hQuote : (next d before text).verdict = accept .regionQuote
  · obtain ⟨rest, rfl, _⟩ := next_eq_regionQuote hQuote
    cases hAfter : (Region.scan d 0 rest).after with
    | none =>
      rw [lexemes_of_open hQuote hAfter] at h
      cases h
      cases hy
    | some beyond =>
      rw [lexemes_of_closed hQuote hAfter] at h
      cases h
      cases hy
  · rw [lexemes_of_plain hText hQuote, List.cons.injEq] at h
    obtain ⟨hHead, hRest⟩ := h
    have hLength : y.text.length = (next d before text).length := by
      rw [← hHead, Match.lexeme, List.length_take, Nat.min_eq_left (next_le d before hText)]
    have hKind : (next d before text).kind = y.kind := by
      rw [← hHead]
      rfl
    have hAfter : text.drop (next d before text).length = textOf ys := by
      rw [← hLength, ← hWhole, textOf_cons, List.drop_left]
    refine ⟨?_, by rw [← hKind, ← hAfter, hRest]⟩
    obtain ⟨kind, n, hNext⟩ := Match.exists_accept (m := next d before text) (by
      rw [hKind]
      intro hError
      rw [hError] at hy
      cases hy)
    rw [hNext] at hLength hKind ⊢
    rw [hLength, ← hKind]
    rfl

/-- **Every lexeme outside quoted regions has its place**: reading comes to it, finds it there,
and goes on after it. -/
theorem Lexeme.exists_place {before : Option TokenKind} {text : List Char} {xs ys : List Lexeme}
    {y : Lexeme} (hy : y.kind.isOuter = true) (h : lexemes d before text = xs ++ y :: ys) :
    ∃ after, Reads d before text xs after (textOf (y :: ys)) ∧
      next d after (textOf (y :: ys)) = .accept y.kind y.text.length ∧
      lexemes d (some y.kind) (textOf ys) = ys := by
  obtain ⟨after, hReads⟩ := Reads.of_lexemes hy h
  have hHere : lexemes d after (textOf (y :: ys)) = y :: ys :=
    List.append_cancel_left (hReads.lexemes_eq.symm.trans h)
  exact ⟨after, hReads, next_of_lexemes hy hHere⟩

/-! ### Exchanging the text after a place -/

/-- A special variable without a name: there is nothing but its sigils. -/
def Lexeme.IsBare (x : Lexeme) : Prop :=
  x.kind = .specialVariable ∧ Symbol.sigilLength x.text = x.text.length

/-- No special variable without a name stands right before a quote, in these
lexemes with this text after them. -/
def BareApart (xs : List Lexeme) (rest : List Char) : Prop :=
  ∀ us x vs, xs = us ++ x :: vs → x.IsBare → Text.startsQuote (textOf vs ++ rest) = false

theorem BareApart.tail {x : Lexeme} {xs : List Lexeme} {rest : List Char}
    (h : BareApart (x :: xs) rest) : BareApart xs rest :=
  fun us y vs hSplit => h (x :: us) y vs (by rw [hSplit, List.cons_append])

/-- The sigils of a text that starts with a variable are those of the variable. -/
theorem Symbol.sigilLength_eq_of_append {x rest : List Char}
    (h : x.length = sigilLength (x ++ rest)) : sigilLength x = x.length := by
  match x with
  | [] =>
    have hPos : 0 < sigilLength rest := by
      unfold sigilLength
      split <;> decide
    rw [List.nil_append, List.length_nil] at h
    omega
  | [c] => simp [sigilLength]
  | a :: b :: x =>
    rw [List.cons_append, List.cons_append, sigilLength_cons] at h
    rw [sigilLength_cons, h]

namespace Reads

variable {before after : Option TokenKind} {text rest rest' : List Char} {xs : List Lexeme}

/-- The step of `Reads.exchange` at a lexeme outside quoted regions. -/
theorem plain_exchange (hd : d.Valid) (hE : Exchange rest rest') (hNew : rest' ≠ [])
    {kind : TokenKind} {n : Nat} {x : Lexeme} (hx : x.verdict = accept kind)
    (hLength : x.text.length = n) (hPos : 0 < n) (hQuote : kind ≠ .regionQuote)
    (hNext : Lexeme.next d before (x.text ++ (textOf xs ++ rest)) = .accept kind n)
    (hBare : BareApart (x :: xs) rest)
    (hBrace : rest'.head? = some '{' → x.text ++ textOf xs ≠ ['{'])
    (hReads : Reads d (some kind) (textOf xs ++ rest') xs after rest') :
    Reads d before (textOf (x :: xs) ++ rest') (x :: xs) after rest' := by
  have hNe : x.text ++ textOf xs ≠ [] := by
    intro hNil
    have := congrArg List.length hNil
    rw [List.length_append, List.length_nil] at this
    omega
  have hSeam : Seam (x.text ++ textOf xs) rest rest' :=
    ⟨hE, hNe, hBrace, fun hNil => absurd hNil hNew⟩
  have hFits : Fits (x.text ++ textOf xs) rest rest' kind n := by
    refine ⟨?_, fun hNil => absurd hNil hNew, hQuote, ?_, fun _ hNil => absurd hNil hNew,
      fun _ => hNew⟩
    · rw [List.length_append, hLength]
      exact Nat.le_add_right _ _
    · intro hKind _ hSigils
      rw [List.append_assoc] at hSigils ⊢
      rw [← hLength] at hSigils ⊢
      rw [List.drop_left]
      refine hBare [] x xs rfl ⟨?_, Symbol.sigilLength_eq_of_append hSigils⟩
      rw [Lexeme.kind, hx]
      exact hKind
  rw [← List.append_assoc] at hNext
  have hStable := Lexeme.next_stable hd hSeam hFits hNext
  have hLexeme : (Match.accept kind n).lexeme (x.text ++ textOf xs ++ rest') = x := by
    rw [Match.lexeme, Match.accept_length, Match.accept_verdict, List.append_assoc, ← hLength,
      List.take_left, ← hx]
  have hDrop : (x.text ++ textOf xs ++ rest').drop n = textOf xs ++ rest' := by
    rw [List.append_assoc, ← hLength, List.drop_left]
  have hStep := @Reads.plain d before after (x.text ++ textOf xs ++ rest') rest' xs
  rw [hStable, hLexeme, Match.accept_length, hDrop] at hStep
  refine hStep (fun hNil => hNe (List.append_eq_nil_iff.1 hNil).1) ?_ hReads
  rw [Match.accept_verdict, ne_eq, Verdict.accept.injEq]
  exact hQuote

/-- **What is read before a place stays the same** when the text after the place
is exchanged. -/
theorem exchange (hd : d.Valid) (hE : Exchange rest rest') (hNew : rest' ≠ [])
    (h : Reads d before text xs after rest) (hClean : ∀ x ∈ xs, x.kind ≠ .error)
    (hBare : BareApart xs rest)
    (hBrace : rest'.head? = some '{' → ∀ us x, xs = us ++ [x] → x.text ≠ ['{']) :
    Reads d before (textOf xs ++ rest') xs after rest' := by
  induction h with
  | done before text => exact .done before rest'
  | @plain before after text rest xs hText hPlain hTail ih =>
    have hTexts := (Reads.plain hText hPlain hTail).text_ne_nil
    have hWhole := (Reads.plain hText hPlain hTail).textOf_append
    have hTailReads := ih hE (fun x hx => hClean x (List.mem_cons_of_mem _ hx)) hBare.tail
      (fun hHead us x hSplit => hBrace hHead (_ :: us) x (by rw [hSplit, List.cons_append]))
    obtain ⟨kind, n, hNext⟩ := Match.exists_accept (hClean _ List.mem_cons_self)
    have hLe := Lexeme.next_le d before hText
    have hPos := Lexeme.next_pos d before text
    rw [hNext] at hPlain hTailReads hLe hPos hBare hTexts hWhole hBrace ⊢
    rw [textOf_cons, List.append_assoc] at hWhole
    refine plain_exchange hd hE hNew rfl ?_ hPos ?_ ?_ hBare ?_ hTailReads
    · exact (List.length_take ..).trans (Nat.min_eq_left hLe)
    · rintro rfl
      exact hPlain rfl
    · rw [hWhole, hNext]
      rfl
    · -- a brace by itself would be the last lexeme
      intro hHead hText
      have hCount := length_le_length_textOf hTexts
      rw [textOf_cons, hText, List.length_cons, List.length_singleton] at hCount
      obtain rfl : xs = [] := List.length_eq_zero_iff.1 (by omega)
      rw [textOf_nil, List.append_nil] at hText
      exact hBrace hHead [] _ rfl hText
  | @region before after text beyond rest xs hQuote hBeyond hTail ih =>
    obtain ⟨_, hEq, hPlan, _⟩ := Lexeme.next_eq_regionQuote hQuote
    obtain rfl := (List.cons.inj hEq).2
    obtain ⟨inside, hLexemes, hForm, hText⟩ := Region.exists_isForm hPlan hBeyond
      fun x hx => hClean x (by simp [hx])
    obtain ⟨ys, hScan⟩ := Region.scan_isForm hForm
    have hys : (Region.scan d 0 text).lexemes = ys := by rw [hText, hScan]
    rw [hys] at hClean hBare hBrace hLexemes ⊢
    have hTailReads := ih hE (fun x hx => hClean x (by simp [hx])) ?_ ?_
    · have hOpen : (Lexeme.next d before
          ('\'' :: (textOf inside ++ '\'' :: (textOf xs ++ rest')))).verdict =
          accept .regionQuote := by
        rw [Lexeme.next_of_region before (Region.ofText_isForm hForm _)]
        rfl
      have hStep := Reads.region hOpen (by rw [hScan]) hTailReads
      rw [hScan] at hStep
      have hSame : textOf (Lexeme.quote :: (ys ++ xs)) ++ rest' =
          '\'' :: (textOf inside ++ '\'' :: (textOf xs ++ rest')) := by
        rw [hLexemes]
        simp [Lexeme.quote]
      rw [hSame]
      exact hStep
    · intro us x vs hSplit
      exact hBare (Lexeme.quote :: (ys ++ us)) x vs (by simp [hSplit])
    · intro hHead us x hSplit
      exact hBrace hHead (Lexeme.quote :: (ys ++ us)) x (by simp [hSplit])

end Reads

/-! ### Texts without faults -/

/-- Every dot stands between two parts of a name; `before` is the kind of the
token before. -/
def DotsJoin : Option TokenKind → List TokenKind → Prop
  | _, [] => True
  | before, kind :: kinds =>
    (kind = .dot →
      before.any (·.isNamePart) = true ∧ kinds.head?.any (·.isNamePart) = true) ∧
      DotsJoin (some kind) kinds

theorem settleDots_eq_self {xs : List Lexeme} {before : Option TokenKind}
    (h : DotsJoin before (xs.map Lexeme.kind)) : settleDots before xs = xs := by
  induction xs generalizing before with
  | nil => rfl
  | cons x xs ih =>
    obtain ⟨hDot, hRest⟩ := h
    rw [settleDots, ih hRest]
    rcases x.settled_cases (before.any (·.isNamePart) && xs.head?.any (·.kind.isNamePart)) with
      hSelf | ⟨text, rfl, hApart, -⟩
    · rw [hSelf]
    · obtain ⟨hBefore, hAfter⟩ := hDot rfl
      rw [List.head?_map, Option.any_map] at hAfter
      have hNext : (xs.head?.any fun y => y.kind.isNamePart) = true := hAfter
      simp [hBefore, hNext] at hApart

/-- If deciding the dots rejects nothing, every dot stands between two parts of a
name. -/
theorem dotsJoin_of_settleDots {xs : List Lexeme} {before : Option TokenKind}
    (h : ∀ x ∈ settleDots before xs, x.kind ≠ .error) : DotsJoin before (xs.map Lexeme.kind) := by
  induction xs generalizing before with
  | nil => trivial
  | cons x xs ih =>
    rw [settleDots] at h
    refine ⟨fun hKind => ?_, ih fun y hy => h y (List.mem_cons_of_mem _ hy)⟩
    rw [List.head?_map, Option.any_map]
    have hSelf := Lexeme.settled_eq_self (h _ List.mem_cons_self)
    exact Bool.and_eq_true_iff.1 (Lexeme.between_of_settled_dot (hSelf.symm ▸ hKind))

/-- Another token in the place of one leaves the dots as they are, if it is no dot
itself and can be part of a name where the first one could. -/
theorem DotsJoin.replace {kind kind' : TokenKind} (hDot : kind' ≠ .dot)
    (hName : kind.isNamePart = true → kind'.isNamePart = true) {ks ls : List TokenKind} :
    ∀ {before : Option TokenKind}, DotsJoin before (ks ++ kind :: ls) →
      DotsJoin before (ks ++ kind' :: ls) := by
  induction ks with
  | nil =>
    rintro before ⟨-, hRest⟩
    refine ⟨fun h => absurd h hDot, ?_⟩
    cases ls with
    | nil => trivial
    | cons l ls => exact ⟨fun hl => ⟨hName (hRest.1 hl).1, (hRest.1 hl).2⟩, hRest.2⟩
  | cons k ks ih =>
    rintro before ⟨hHead, hRest⟩
    refine ⟨fun hk => ⟨(hHead hk).1, ?_⟩, ih hRest⟩
    have hAfter := (hHead hk).2
    cases ks with
    | nil => exact hName hAfter
    | cons l ks => exact hAfter

/-- The source is read into these lexemes and nothing is rejected. -/
structure Faultless (d : Dialect) (source : List Char) (xs : List Lexeme) : Prop where
  lexemes_eq : lexemes d none source = xs
  accepted : ∀ x ∈ xs, x.kind ≠ .error
  dots : DotsJoin none (xs.map Lexeme.kind)

namespace Faultless

variable {source : List Char} {xs : List Lexeme}

theorem settled (h : Faultless d source xs) : settledLexemes d source = xs := by
  rw [settledLexemes, h.lexemes_eq, settleDots_eq_self h.dots]

theorem diagnostics_eq_nil (h : Faultless d source xs) : (d.scan source).diagnostics = [] := by
  have hSpans := span_diagnosticsAt (explained_of_mem_settledLexemes d source) .start
  have hNone : (tokensAt .start (settledLexemes d source)).filter (·.kind = .error) = [] := by
    rw [h.settled, List.filter_eq_nil_iff]
    intro t ht
    simpa using (forall_kind_tokensAt (P := (· ≠ .error))).2 h.accepted t ht
  rw [hNone, List.map_nil, List.map_eq_nil_iff] at hSpans
  rw [diagnostics_scan, hSpans]

theorem tokens_eq (h : Faultless d source xs) : (d.scan source).tokens = tokensAt .start xs := by
  rw [scan_eq, h.settled]

theorem textOf_eq (h : Faultless d source xs) : textOf xs = source := by
  rw [← h.lexemes_eq]
  exact text_lexemes d none source

theorem text_ne_nil (h : Faultless d source xs) : ∀ x ∈ xs, x.text ≠ [] := by
  have hTexts := text_ne_nil_of_mem_settledLexemes d source
  rwa [h.settled] at hTexts

/-- Reading comes to every lexeme outside quoted regions, and goes on after it. -/
theorem exists_place {y : Lexeme} {ys : List Lexeme}
    (h : Faultless d source (xs ++ y :: ys)) (hy : y.kind.isOuter = true) :
    ∃ before, Reads d none source xs before (textOf (y :: ys)) ∧
      Lexeme.next d before (textOf (y :: ys)) = .accept y.kind y.text.length ∧
      lexemes d (some y.kind) (textOf ys) = ys :=
  Lexeme.exists_place hy h.lexemes_eq

end Faultless

/-- **A source without diagnostics is read without faults.** -/
theorem faultless_of_diagnostics {source : List Char} (h : (d.scan source).diagnostics = []) :
    Faultless d source (lexemes d none source) := by
  have hSpans := span_diagnosticsAt (explained_of_mem_settledLexemes d source) .start
  rw [← diagnostics_scan, h, List.map_nil, eq_comm, List.map_eq_nil_iff,
    List.filter_eq_nil_iff] at hSpans
  have hAccepted : ∀ x ∈ settledLexemes d source, x.kind ≠ .error :=
    (forall_kind_tokensAt (P := (· ≠ .error))).1 fun t ht => by simpa using hSpans t ht
  have hDots := dotsJoin_of_settleDots hAccepted
  rw [settledLexemes, settleDots_eq_self hDots] at hAccepted
  exact ⟨rfl, hAccepted, hDots⟩

/-! ### Variables before quotes -/

/-- No special variable stands right before a token that starts with a quote. -/
def VariablesApart (source : List Char) (tokens : List Token) : Prop :=
  ∀ before t u after, tokens = before ++ t :: u :: after → t.kind = .specialVariable →
    Text.startsQuote (u.text source) = false

/-- No special variable without a name stands right before a token that starts
with a quote. -/
def BareVariablesApart (source : List Char) (tokens : List Token) : Prop :=
  ∀ before t u after, tokens = before ++ t :: u :: after → t.kind = .specialVariable →
    Symbol.sigilLength (t.text source) = (t.text source).length →
    Text.startsQuote (u.text source) = false

theorem VariablesApart.bare {source : List Char} {tokens : List Token}
    (h : VariablesApart source tokens) : BareVariablesApart source tokens :=
  fun before t u after hSplit hKind _ => h before t u after hSplit hKind

/-- There are no special variables at all. -/
theorem VariablesApart.of_forall {source : List Char} {tokens : List Token}
    (h : ∀ t ∈ tokens, t.kind ≠ .specialVariable) : VariablesApart source tokens := by
  rintro before t u after rfl hKind
  exact absurd hKind (h t (by simp))

/-- All special variables have names. -/
theorem BareVariablesApart.of_named {source : List Char} {tokens : List Token}
    (h : ∀ t ∈ tokens, t.kind = .specialVariable →
      Symbol.sigilLength (t.text source) ≠ (t.text source).length) :
    BareVariablesApart source tokens := by
  rintro before t u after rfl hKind hSigils
  exact absurd hSigils (h t (by simp) hKind)

theorem bareVariablesApart_iff {zs : List Lexeme} :
    BareVariablesApart (textOf zs) (tokensAt .start zs) ↔
      ∀ us x v vs, zs = us ++ x :: v :: vs → x.IsBare → Text.startsQuote v.text = false := by
  have hFirst : ∀ us x v vs, Token.text (textOf (us ++ x :: v :: vs))
      ⟨x.kind, Span.ofText (Position.start.advance (textOf us)) x.text⟩ = x.text := by
    intro us x v vs
    rw [textOf_append, textOf_cons]
    exact text_ofText _ _ _ _
  have hSecond : ∀ us x v vs, Token.text (textOf (us ++ x :: v :: vs))
      ⟨v.kind, Span.ofText (Position.start.advance (textOf us ++ x.text)) v.text⟩ = v.text := by
    intro us x v vs
    rw [textOf_append, textOf_cons, textOf_cons, ← List.append_assoc]
    exact text_ofText _ _ _ _
  constructor
  · rintro h us x v vs rfl ⟨hKind, hSigils⟩
    have hQuote := h (tokensAt .start us) _ _ _ (by
      rw [tokensAt_append, tokensAt_cons, tokensAt_cons, ← Position.advance_append]) hKind
    rw [hFirst, hSecond] at hQuote
    exact hQuote hSigils
  · intro h before t u after hSplit hKind hSigils
    obtain ⟨us, ws, rfl, _, hRest⟩ := tokensAt_eq_append_iff.1 hSplit
    obtain ⟨x, ws, rfl, rfl, hNext⟩ := tokensAt_eq_cons_iff.1 hRest
    obtain ⟨v, vs, rfl, rfl, _⟩ := tokensAt_eq_cons_iff.1 hNext
    rw [hFirst] at hSigils
    rw [← Position.advance_append, hSecond]
    exact h us x v vs rfl ⟨hKind, hSigils⟩

namespace Faultless

variable {source : List Char} {xs ys : List Lexeme} {y : Lexeme}

theorem bareApart (h : Faultless d source (xs ++ y :: ys))
    (hBare : BareVariablesApart source (d.scan source).tokens) :
    BareApart xs (textOf (y :: ys)) := by
  rintro us x vs rfl hx
  obtain ⟨v, ws, hNext⟩ : ∃ v ws, vs ++ y :: ys = v :: ws :=
    List.exists_cons_of_ne_nil (by simp)
  have hTexts := h.text_ne_nil
  rw [h.tokens_eq, ← h.textOf_eq, List.append_assoc, List.cons_append, hNext] at hBare
  rw [List.append_assoc, List.cons_append, hNext] at hTexts
  have hQuote := bareVariablesApart_iff.1 hBare us x v ws rfl hx
  obtain ⟨c, text, hText⟩ := List.exists_cons_of_ne_nil (hTexts v (by simp))
  rw [← textOf_append, hNext, textOf_cons, hText]
  rw [hText] at hQuote
  exact hQuote

/-- It is enough to look at the quotes right after variables without a name. -/
theorem bareVariablesApart {zs : List Lexeme} (h : Faultless d source zs)
    (hQuotes : ∀ us x v vs quote inner, zs = us ++ x :: v :: vs → x.IsBare →
      v.text = quote :: inner → Text.startsQuote (quote :: inner) = false) :
    BareVariablesApart source (d.scan source).tokens := by
  rw [h.tokens_eq, ← h.textOf_eq, bareVariablesApart_iff]
  intro us x v vs hSplit hBare
  cases hText : v.text with
  | nil => rfl
  | cons quote inner => exact hQuotes us x v vs quote inner hSplit hBare hText

/-- `Reads.exchange` for a source without faults. -/
theorem exchange (hd : d.Valid) (h : Faultless d source (xs ++ y :: ys))
    (hBare : BareVariablesApart source (d.scan source).tokens) {before : Option TokenKind}
    (hReads : Reads d none source xs before (textOf (y :: ys))) {rest : List Char}
    (hE : Exchange (textOf (y :: ys)) rest) (hRest : rest ≠ [])
    (hBrace : rest.head? = some '{' → ∀ us x, xs = us ++ [x] → x.text ≠ ['{']) :
    Reads d none (textOf xs ++ rest) xs before rest :=
  hReads.exchange hd hE hRest (fun x hx => h.accepted x (by simp [hx])) (h.bareApart hBare) hBrace

end Faultless

end SqlTemplate
