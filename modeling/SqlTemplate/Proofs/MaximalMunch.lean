import SqlTemplate.Proofs.CharRoles
import SqlTemplate.Proofs.FaultTexts
import SqlTemplate.Proofs.Words

/-!
# Maximal munch

Whitespace, words, line comments and operators are runs, read by loops of their own, and each
run goes on as far as it can.  An operator stops before a comment, so that what lies inside it
never starts one.

* `Symbol.goesOn`: an operator goes on with an operator character that starts no comment.
* `Lexeme.read_of_kind`: where one form alone gives a kind, the forms before it found nothing.
  This is how an operator starts no comment with its first character either.
* `Lexeme.Munches`: what a run holds and where it stops, with the text after it.

The main statement is `scan_munches`.  It holds of every dialect, also of one that is not valid.
-/

namespace SqlTemplate

variable {d : Dialect}

/-! ### Runs -/

theorem Text.spaceRun_maximal (text : List Char) :
    (∀ c ∈ text.take (spaceRun text), isSpace c = true) ∧
      (text.drop (spaceRun text)).head?.any isSpace = false := by
  refine ⟨fun c hc => ?_, head?_drop_run _ _⟩
  rw [spaceRun, take_run] at hc
  exact List.mem_takeWhile_imp hc

namespace Symbol

/-- Whether an operator goes on here: with an operator character that starts no comment. -/
def goesOn (d : Dialect) (text : List Char) : Bool :=
  text.head?.any d.isOperatorChar && !Comment.startsLine d text && !Comment.startsBlock text

theorem goesOn_cons (c : Char) (rest : List Char) :
    goesOn d (c :: rest) =
      (d.isOperatorChar c && !Comment.startsLine d (c :: rest) &&
        !Comment.startsBlock (c :: rest)) := rfl

/-- An operator does not stop where it could go on. -/
theorem goesOn_drop_operatorRun (d : Dialect) (text : List Char) :
    goesOn d (text.drop (operatorRun d text)) = false := by
  induction text with
  | nil => rfl
  | cons c rest ih =>
    rw [operatorRun, ← goesOn_cons]
    split
    · rw [List.drop_succ_cons]
      exact ih
    · next hStop =>
      rw [List.drop_zero]
      exact Bool.eq_false_iff.2 hStop

/-- An operator goes on at each of its characters. -/
theorem goesOn_of_suffix {text v : List Char} (hSuffix : v <:+ text.take (operatorRun d text))
    (hv : v ≠ []) : goesOn d (v ++ text.drop (operatorRun d text)) = true := by
  induction text with
  | nil => exact absurd (List.suffix_nil.1 hSuffix) hv
  | cons c rest ih =>
    rw [operatorRun, ← goesOn_cons] at hSuffix ⊢
    split at hSuffix
    · next hGo =>
      rw [if_pos hGo, List.drop_succ_cons]
      rw [List.take_succ_cons] at hSuffix
      rcases List.suffix_cons_iff.1 hSuffix with rfl | hRest
      · rw [List.cons_append, List.take_append_drop]
        exact hGo
      · exact ih hRest
    · exact absurd (List.suffix_nil.1 hSuffix) hv

end Symbol

namespace Comment

theorem startsLine_of_line? {text : List Char} (h : line? d text = none) :
    startsLine d text = false := by
  rw [line?, ite_eq_right_iff] at h
  exact Bool.eq_false_iff.2 fun hLine => by cases h hLine

theorem startsBlock_of_block? {text : List Char} (h : block? text = none) :
    startsBlock text = false := by
  refine Bool.eq_false_iff.2 fun hBlock => ?_
  rw [block?, if_pos hBlock] at h
  split at h <;> cases h

end Comment

/-! ### Which form has read a lexeme -/

namespace Lexeme

/-- **A kind that one form alone gives.**  That form has read the lexeme, and the forms before it
have found nothing. -/
theorem read_of_kind {before : Option TokenKind} {text : List Char} {f : Form}
    (hKind : (next d before text).kind ≠ .error)
    (hForm : ∀ g : Form, ∀ v ∈ g.verdicts, v.kind = (next d before text).kind → g = f) :
    f.recogniser d before text = some (next d before text) ∧
      ∀ g : Form, g ≠ f → ¬[f, g].Sublist Form.all → g.recogniser d before text = none := by
  cases hFirst : Recogniser.firstOf (forms d before) text with
  | none =>
    rw [next, hFirst] at hKind
    exact absurd rfl hKind
  | some m =>
    have hNext : next d before text = m := by rw [next, hFirst, Option.getD_some]
    rw [Form.forms_eq, Recogniser.firstOf, List.findSome?_map,
      List.findSome?_eq_some_iff] at hFirst
    obtain ⟨earlier, found, later, hAll, hFound, hEarlier⟩ := hFirst
    have hVerdict := (found.recogniser_yields d before text m hFound).2
    have hSame : found = f := hForm found m.verdict hVerdict (congrArg Match.kind hNext.symm)
    subst hSame
    rw [hNext]
    refine ⟨hFound, fun g hNe hOrder => ?_⟩
    have hMem : g ∈ earlier ++ found :: later := by
      rw [← hAll]
      cases g <;> decide
    rcases List.mem_append.1 hMem with hBefore | hAfter
    · exact hEarlier g hBefore
    · -- a form after the one that found something
      refine absurd ?_ hOrder
      rw [hAll]
      have hLater := (List.mem_cons.1 hAfter).resolve_left hNe
      exact ((List.singleton_sublist.2 hLater).cons_cons found).trans
        (List.sublist_append_right _ _)

end Lexeme

/-- Inside quoted regions too, whitespace starts where a lexeme starts with whitespace. -/
theorem Region.next_whitespace_iff {count : Nat} {c : Char} {rest : List Char} :
    (next d count (c :: rest)).kind = .whitespace ↔ Text.isSpace c = true := by
  rcases next_cases d count c rest with
    ⟨hSpace, hNext⟩ | ⟨hOpen, hNext⟩ | ⟨rfl, -, hNext⟩ | ⟨hSpace, -, -, hNext⟩
  · rw [hNext]
    exact iff_of_true rfl hSpace
  · have hKinds : ∀ v ∈ Verdict.reject .secondPlaceholder :: Placeholder.verdicts,
        v.kind ≠ .whitespace := by decide
    obtain ⟨after, hText⟩ := Placeholder.startsOpen_iff.1 hOpen
    obtain ⟨rfl, rfl⟩ := List.cons.inj hText
    rw [hNext]
    refine iff_of_false (hKinds _ ?_) (by decide)
    rcases judged_verdict count (Placeholder.scan d ('{' :: '{' :: after)) with hSame | hSecond
    · rw [hSame]
      exact List.mem_cons_of_mem _ (Placeholder.scan_verdict d _)
    · rw [hSecond]
      exact List.mem_cons_self
  · rw [hNext]
    exact iff_of_false (fun h => by cases h) (by decide)
  · rw [hNext, hSpace]
    exact iff_of_false (fun h => by cases h) (by decide)

/-! ### Lexemes with the text after them -/

/-- The lexeme is a whole run of what its kind says; `rest` is the text after it. -/
structure Lexeme.Munches (d : Dialect) (x : Lexeme) (rest : List Char) : Prop where
  whitespace_iff : x.kind = .whitespace ↔ x.text.head?.any Text.isSpace = true
  whitespace : x.kind = .whitespace →
    (∀ c ∈ x.text, Text.isSpace c = true) ∧ rest.head?.any Text.isSpace = false
  word : x.kind ∈ TokenKind.wordKinds →
    x.text.head?.any Text.isWordChar = true ∧ rest.head?.any Text.isWordChar = false
  lineComment : x.kind = .lineComment → '\n' ∉ x.text ∧ rest.head?.any (· != '\n') = false
  operator : x.kind = .operator →
    (∀ v, v <:+ x.text → v ≠ [] → Symbol.goesOn d (v ++ rest) = true) ∧
      Symbol.goesOn d rest = false

namespace Lexeme

/-- Whitespace starts where a lexeme starts with whitespace, and only there. -/
theorem next_whitespace_iff {before : Option TokenKind} {c : Char} {rest : List Char} :
    (next d before (c :: rest)).kind = .whitespace ↔ Text.isSpace c = true := by
  constructor
  · intro hKind
    have hRead := (read_of_kind (d := d) (f := .whitespace) (by rw [hKind]; decide)
      (by rw [hKind]; intro g; cases g <;> decide)).1
    rw [Form.recogniser, Symbol.whitespace?, Option.ite_none_right_eq_some] at hRead
    exact hRead.1
  · intro hSpace
    rw [next_of_isSpace hSpace]
    rfl

/-- **Outside quoted regions every step takes whole runs.** -/
theorem munches_next (d : Dialect) (before : Option TokenKind) (c : Char) (rest : List Char) :
    Munches d ((next d before (c :: rest)).lexeme (c :: rest))
      ((c :: rest).drop (next d before (c :: rest)).length) where
  whitespace_iff := by
    rw [Match.head?_lexeme (next_pos d before _)]
    exact next_whitespace_iff
  whitespace := by
    intro hKind
    rw [next_of_isSpace (next_whitespace_iff.1 hKind)]
    exact Text.spaceRun_maximal _
  word := by
    intro hKind
    obtain ⟨hStart, hNext⟩ := Symbol.eq_of_word? (next_eq_word hKind)
    rw [Match.head?_lexeme (next_pos d before _), hNext]
    exact ⟨Text.isWordChar_of_isWordStart hStart, Text.head?_drop_run _ _⟩
  lineComment := by
    intro hKind
    change (next d before (c :: rest)).kind = _ at hKind
    have hRead := (read_of_kind (d := d) (f := .lineComment) (by rw [hKind]; decide)
      (by rw [hKind]; intro g; cases g <;> decide)).1
    rw [Form.recogniser, Comment.line?, Option.ite_none_right_eq_some, Option.some.injEq] at hRead
    rw [← hRead.2]
    refine ⟨fun hBreak => ?_, Text.head?_drop_run _ _⟩
    rw [Match.lexeme, Match.accept_length, Text.take_run] at hBreak
    simpa using List.mem_takeWhile_imp hBreak
  operator := by
    intro hKind
    change (next d before (c :: rest)).kind = _ at hKind
    obtain ⟨hRead, hEarlier⟩ := read_of_kind (d := d) (f := .operator) (by rw [hKind]; decide)
      (by rw [hKind]; intro g; cases g <;> decide)
    rw [Form.recogniser, Symbol.operator?, Option.ite_none_right_eq_some,
      Option.some.injEq] at hRead
    have hGo : Symbol.goesOn d (c :: rest) = true := by
      have hLine := hEarlier .lineComment (by decide) (by decide)
      have hBlock := hEarlier .blockComment (by decide) (by decide)
      rw [Symbol.goesOn_cons, hRead.1, Comment.startsLine_of_line? hLine,
        Comment.startsBlock_of_block? hBlock]
      rfl
    have hRun : Symbol.operatorRun d rest + 1 = Symbol.operatorRun d (c :: rest) := by
      rw [Symbol.operatorRun, ← Symbol.goesOn_cons, if_pos hGo]
    rw [← hRead.2, hRun]
    exact ⟨fun v => Symbol.goesOn_of_suffix, Symbol.goesOn_drop_operatorRun d _⟩

/-- **Inside quoted regions too.**  Of the runs only whitespace is read there. -/
theorem munches_regionNext (d : Dialect) (count : Nat) (c : Char) (rest : List Char) :
    Munches d ((Region.next d count (c :: rest)).lexeme (c :: rest))
      ((c :: rest).drop (Region.next d count (c :: rest)).length) := by
  have hKinds : ∀ v ∈ Region.verdicts, v.kind ∉ TokenKind.wordKinds ∧ v.kind ≠ .lineComment ∧
      v.kind ≠ .operator := by decide
  obtain ⟨hWord, hLine, hOperator⟩ := hKinds _ (Region.next_verdict d count c rest)
  refine ⟨?_, fun hKind => ?_, fun h => absurd h hWord, fun h => absurd h hLine,
    fun h => absurd h hOperator⟩
  · rw [Match.head?_lexeme (Region.next_pos d count c rest)]
    exact Region.next_whitespace_iff
  · rw [Region.next_of_isSpace d count (Region.next_whitespace_iff.1 hKind)]
    exact Text.spaceRun_maximal _

theorem munches_openQuote (d : Dialect) (rest : List Char) : Munches d openQuote rest where
  whitespace_iff := by decide
  whitespace := fun h => by cases h
  word := fun h => absurd h (by decide)
  lineComment := fun h => by cases h
  operator := fun h => by cases h

/-- A dot is no run, whether it is stray or not. -/
theorem Munches.strayDot {text rest : List Char} (h : Munches d ⟨text, .accept .dot⟩ rest) :
    Munches d ⟨text, .reject .strayDot⟩ rest where
  whitespace_iff := by
    have hDot : ¬text.head?.any Text.isSpace = true := fun hSpace => by
      cases h.whitespace_iff.2 hSpace
    exact iff_of_false (fun hKind => by cases hKind) hDot
  whitespace := fun hKind => by cases hKind
  word := fun hKind => absurd (show TokenKind.error ∈ TokenKind.wordKinds from hKind) (by decide)
  lineComment := fun hKind => by cases hKind
  operator := fun hKind => by cases hKind

end Lexeme

/-- **All lexemes of a source are whole runs.** -/
theorem munches_settledLexemes (d : Dialect) (source : List Char) :
    ForallWith (Lexeme.Munches d) [] (settledLexemes d source) := by
  apply forallWith_settleDots
  · exact fun text rest h => h.strayDot
  · exact forallWith_lexemes (Lexeme.munches_next d) (Lexeme.munches_regionNext d)
      (Lexeme.munches_openQuote d) none source

/-- Where a lexeme stands among the others, it is a whole run before the text of those after. -/
theorem munches_of_settledLexemes {source : List Char} {us vs : List Lexeme} {x : Lexeme}
    (h : settledLexemes d source = us ++ x :: vs) : x.Munches d (textOf vs) := by
  have hAll := munches_settledLexemes d source
  rw [h, forallWith_append] at hAll
  have hHead := hAll.2.1
  rwa [List.append_nil] at hHead

/-! ### Tokens -/

/-- A place between two characters, strictly inside a part of a text, cuts that part in two. -/
theorem Text.exists_cut_of_isBoundary {before text after : List Char} {n : Nat}
    (h : IsBoundary (before ++ (text ++ after)) n) (hStart : byteLength before < n)
    (hStop : n < byteLength before + byteLength text) :
    ∃ u v, text = u ++ v ∧ v ≠ [] ∧ n = byteLength (before ++ u) := by
  rw [IsBoundary, String.Pos.Raw.isValid_ofList] at h
  obtain ⟨k, hk⟩ := h
  rw [← byteLength_eq_utf8ByteSize] at hk
  change n = _ at hk
  have hSplit := List.take_append_drop k (before ++ (text ++ after))
  generalize (before ++ (text ++ after)).take k = cut at hk hSplit
  rcases List.append_eq_append_iff.1 hSplit with ⟨u, rfl, hMore⟩ | ⟨u, rfl, hMore⟩
  · rw [byteLength_append] at hStart
    omega
  · rcases List.append_eq_append_iff.1 hMore with ⟨w, rfl, -⟩ | ⟨v, rfl, -⟩
    · rw [hk, byteLength_append, byteLength_append] at hStop
      omega
    · refine ⟨u, v, rfl, ?_, hk⟩
      rintro rfl
      rw [hk, byteLength_append, List.append_nil] at hStop
      omega

theorem Text.any_head?_append {p : Char → Bool} {s : List Char} (t : List Char)
    (h : s.head?.any p = true) : (s ++ t).head?.any p = true := by
  cases s with
  | nil => cases h
  | cons c s => exact h

/-- A token among the tokens of a source is a whole run before the text of those after. -/
theorem exists_munches_of_tokens {source : List Char} {before after : List Token} {t : Token}
    (h : (d.scan source).tokens = before ++ t :: after) :
    ∃ us x vs, settledLexemes d source = us ++ x :: vs ∧ x.Munches d (textOf vs) ∧
      t = ⟨x.kind, Span.ofText (Position.start.advance (textOf us)) x.text⟩ ∧
      tokensAt (Position.start.advance (textOf (us ++ [x]))) vs = after := by
  rw [scan_eq] at h
  obtain ⟨us, ws, hLexemes, -, hRest⟩ := tokensAt_eq_append_iff.1 h
  obtain ⟨x, vs, rfl, rfl, hAfter⟩ := tokensAt_eq_cons_iff.1 hRest
  refine ⟨us, x, vs, hLexemes, munches_of_settledLexemes hLexemes, rfl, ?_⟩
  rw [textOf_append, textOf_cons, textOf_nil, List.append_nil, Position.advance_append]
  exact hAfter

/-- These tokens of the source are whole runs. -/
structure MaximalMunch (d : Dialect) (source : List Char) (tokens : List Token) : Prop where
  adjacent : ∀ before t u after, tokens = before ++ t :: u :: after →
    ¬(t.kind = .whitespace ∧ u.kind = .whitespace) ∧
      ¬(t.kind = .operator ∧ u.kind = .operator) ∧
      ¬(t.kind ∈ TokenKind.wordKinds ∧ u.kind ∈ TokenKind.wordKinds)
  whitespace : ∀ t ∈ tokens,
    (t.kind = .whitespace ↔ (t.text source).head?.any Text.isSpace = true) ∧
      (t.kind = .whitespace → ∀ c ∈ t.text source, Text.isSpace c = true)
  /-- The line break that ends a line comment is whitespace of its own. -/
  lineComment : ∀ before t after, tokens = before ++ t :: after → t.kind = .lineComment →
    '\n' ∉ t.text source ∧
      ((after = [] ∧ t.span.stop = Text.byteLength source) ∨
        ∃ u later, after = u :: later ∧ u.kind = .whitespace ∧
          (u.text source).head? = some '\n')
  /-- Inside an operator no comment starts. -/
  operator : ∀ t ∈ tokens, t.kind = .operator → ∀ n, Text.IsBoundary source n →
    t.span.start < n → n < t.span.stop →
      Comment.startsLine d (Text.dropBytes n source) = false ∧
        Comment.startsBlock (Text.dropBytes n source) = false

/-- **Maximal munch.**  No two tokens beside each other are both whitespace, both operators or
both words; a token is whitespace exactly if it starts with whitespace, and then it holds nothing
else; a line comment goes to the end of its line; and no comment starts inside an operator. -/
theorem scan_munches (d : Dialect) (source : List Char) :
    MaximalMunch d source (d.scan source).tokens where
  adjacent := by
    intro before t u after hTokens
    obtain ⟨us, x, vs, hLexemes, hMunches, rfl, hAfter⟩ := exists_munches_of_tokens hTokens
    obtain ⟨y, ws, rfl, rfl, -⟩ := tokensAt_eq_cons_iff.1 hAfter
    have hText : y.text ≠ [] :=
      text_ne_nil_of_mem_settledLexemes d source y (by simp [hLexemes])
    have hSplit : settledLexemes d source = us ++ [x] ++ y :: ws := by
      rw [hLexemes, List.append_assoc, List.singleton_append]
    have hNext := munches_of_settledLexemes hSplit
    rw [textOf_cons] at hMunches
    refine ⟨fun ⟨hx, hy⟩ => ?_, fun ⟨hx, hy⟩ => ?_, fun ⟨hx, hy⟩ => ?_⟩
    · have hSpace := Text.any_head?_append (textOf ws) (hNext.whitespace_iff.1 hy)
      rw [(hMunches.whitespace hx).2] at hSpace
      cases hSpace
    · have hGo := (hNext.operator hy).1 y.text (List.suffix_refl _) hText
      rw [(hMunches.operator hx).2] at hGo
      cases hGo
    · have hWord := Text.any_head?_append (textOf ws) (hNext.word hy).1
      rw [(hMunches.word hx).2] at hWord
      cases hWord
  whitespace := by
    intro t ht
    rw [scan_eq] at ht
    obtain ⟨us, x, vs, hLexemes, rfl⟩ := mem_tokensAt ht
    rw [text_of_settledLexemes hLexemes]
    have hMunches := munches_of_settledLexemes hLexemes
    exact ⟨hMunches.whitespace_iff, fun hKind => (hMunches.whitespace hKind).1⟩
  lineComment := by
    intro before t after hTokens hKind
    obtain ⟨us, x, vs, hLexemes, hMunches, rfl, hAfter⟩ := exists_munches_of_tokens hTokens
    obtain ⟨hBreak, hRest⟩ := hMunches.lineComment hKind
    rw [text_of_settledLexemes hLexemes]
    refine ⟨hBreak, ?_⟩
    cases vs with
    | nil =>
      refine Or.inl ⟨hAfter.symm, ?_⟩
      rw [← textOf_settledLexemes d source, hLexemes, textOf_append, textOf_cons, textOf_nil,
        List.append_nil, Text.byteLength_append, Span.ofText, start_advance_offset]
    | cons y ws =>
      have hSplit : settledLexemes d source = us ++ [x] ++ y :: ws := by
        rw [hLexemes, List.append_assoc, List.singleton_append]
      have hText : y.text ≠ [] :=
        text_ne_nil_of_mem_settledLexemes d source y (by simp [hLexemes])
      have hHead : y.text.head? = some '\n' := by
        obtain ⟨c, w, hw⟩ := List.exists_cons_of_ne_nil hText
        rw [textOf_cons, hw] at hRest
        rw [hw]
        simpa using hRest
      have hSpace : y.kind = .whitespace := by
        rw [(munches_of_settledLexemes hSplit).whitespace_iff, hHead]
        decide
      rw [tokensAt_cons] at hAfter
      refine Or.inr ⟨_, _, hAfter.symm, hSpace, ?_⟩
      rw [text_of_settledLexemes hSplit]
      exact hHead
  operator := by
    intro t ht hKind n hBoundary hStart hStop
    rw [scan_eq] at ht
    obtain ⟨us, x, vs, hLexemes, rfl⟩ := mem_tokensAt ht
    have hGo := ((munches_of_settledLexemes hLexemes).operator hKind).1
    rw [Span.ofText, start_advance_offset] at hStart hStop
    rw [← textOf_settledLexemes d source, hLexemes, textOf_append, textOf_cons] at hBoundary ⊢
    obtain ⟨u, v, hText, hv, rfl⟩ := Text.exists_cut_of_isBoundary hBoundary hStart hStop
    have hHere := hGo v (hText ▸ List.suffix_append u v) hv
    rw [Symbol.goesOn, Bool.and_eq_true, Bool.and_eq_true, Bool.not_eq_true',
      Bool.not_eq_true'] at hHere
    rw [hText, List.append_assoc, ← List.append_assoc, Text.dropBytes_append]
    exact ⟨hHere.1.2, hHere.2⟩

/-- In MySQL two dashes start a comment only before whitespace, so that the first two of these are
an operator; the next two are not. -/
theorem scan_munches_dashes :
    (Preset.mysql.rules.scan "a--b+-- c\n".toList).kinds =
        [.identifier, .operator, .identifier, .operator, .lineComment, .whitespace] ∧
      MaximalMunch Preset.mysql.rules "a--b+-- c\n".toList
        (Preset.mysql.rules.scan "a--b+-- c\n".toList).tokens :=
  ⟨by decide +kernel, scan_munches Preset.mysql.rules "a--b+-- c\n".toList⟩

end SqlTemplate
