import Mathlib.Data.List.Basic
import SqlTemplate.Proofs.Classification
import SqlTemplate.Proofs.Presets

/-!
# Dots

A dot is looked at twice.  Where it is read, it starts a number if a digit follows it and the
token before it is no part of a name; every other dot is read by itself.  Once all lexemes are
known, a dot that does not stand between two parts of a name is rejected.  That both see the
same neighbours as a reader of the tokens does rests on three facts:

* `isNamePart_settleDots`: deciding the dots makes no part of a name and takes none away.
* `exists_of_settleDots_append`: so what is decided about a lexeme is told by the decided
  lexemes on its two sides.
* `Reads.after_eq`: the kind that a lexeme is read after is that of the lexeme before it, also
  after a quoted region.

`Lexeme.next_dot` says what is read at a dot, and the main statement `scan_dot` speaks of the
tokens of a source only.
-/

namespace SqlTemplate

open Verdict (accept reject)

variable {d : Dialect}

/-! ### The two sides of a lexeme -/

section Neighbours

variable {α β : Type} {f : α → Bool} {g : β → Bool} {xs : List α} {ys : List β}

theorem any_getLast?_congr (h : xs.map f = ys.map g) : xs.getLast?.any f = ys.getLast?.any g := by
  have hLast := congrArg (fun zs => zs.getLast?.any id) h
  simp only [List.getLast?_map, Option.any_map] at hLast
  exact hLast

theorem any_head?_congr (h : xs.map f = ys.map g) : xs.head?.any f = ys.head?.any g := by
  have hHead := congrArg (fun zs => zs.head?.any id) h
  simp only [List.head?_map, Option.any_map] at hHead
  exact hHead

end Neighbours

namespace TokenKind

/-- Whether the last token of these kinds can be a part of a name. -/
def endsInPart (kinds : List TokenKind) : Bool := kinds.getLast?.any isNamePart

/-- Whether the first token of these kinds can be a part of a name. -/
def startsWithPart (kinds : List TokenKind) : Bool := kinds.head?.any isNamePart

/-- Whether parts of a name stand on both sides, between tokens of these kinds. -/
def joins (before after : List TokenKind) : Bool := endsInPart before && startsWithPart after

section Congr

variable {ks ls : List TokenKind} (h : ks.map isNamePart = ls.map isNamePart)

include h

theorem endsInPart_congr : endsInPart ks = endsInPart ls := any_getLast?_congr h

theorem startsWithPart_congr : startsWithPart ks = startsWithPart ls := any_head?_congr h

end Congr

theorem endsInPart_append_cons (ks : List TokenKind) (k : TokenKind) (ls : List TokenKind) :
    endsInPart (ks ++ k :: ls) = endsInPart (k :: ls) := by
  rw [endsInPart, List.getLast?_append_cons, endsInPart]

end TokenKind

open TokenKind (isNamePart endsInPart startsWithPart joins)

/-! ### Deciding the dots -/

theorem settleDots_cons (before : Option TokenKind) (x : Lexeme) (rest : List Lexeme) :
    settleDots before (x :: rest) =
      x.settled (joins before.toList (rest.map Lexeme.kind)) :: settleDots (some x.kind) rest := by
  cases before <;> cases rest <;> rfl

/-- Deciding the dots makes no part of a name and takes none away. -/
theorem isNamePart_settleDots (before : Option TokenKind) (xs : List Lexeme) :
    ((settleDots before xs).map Lexeme.kind).map isNamePart =
      (xs.map Lexeme.kind).map isNamePart := by
  induction xs generalizing before with
  | nil => rfl
  | cons x xs ih =>
    rw [settleDots_cons, List.map_cons, List.map_cons, ih, Lexeme.settled_isNamePart]
    rfl

/-- **What is decided about a lexeme** is told by the decided lexemes on its two sides. -/
theorem exists_of_settleDots_append {us vs : List Lexeme} {y : Lexeme} :
    ∀ {before : Option TokenKind} {zs : List Lexeme}, settleDots before zs = us ++ y :: vs →
      ∃ xs x ys, zs = xs ++ x :: ys ∧ xs.map Lexeme.text = us.map Lexeme.text ∧
        (xs.map Lexeme.kind).map isNamePart = (us.map Lexeme.kind).map isNamePart ∧
        y = x.settled (joins (before.toList ++ us.map Lexeme.kind) (vs.map Lexeme.kind)) := by
  induction us with
  | nil =>
    intro before zs h
    cases zs with
    | nil => cases h
    | cons z zs =>
      rw [settleDots_cons, List.nil_append, List.cons.injEq] at h
      obtain ⟨rfl, rfl⟩ := h
      refine ⟨[], z, zs, rfl, rfl, rfl, ?_⟩
      have hAfter := TokenKind.startsWithPart_congr (isNamePart_settleDots (some z.kind) zs)
      rw [List.map_nil, List.append_nil, joins, ← hAfter, joins]
  | cons u us ih =>
    intro before zs h
    cases zs with
    | nil => cases h
    | cons z zs =>
      rw [settleDots_cons, List.cons_append, List.cons.injEq] at h
      obtain ⟨rfl, hRest⟩ := h
      obtain ⟨xs, x, ys, rfl, hText, hParts, rfl⟩ := ih hRest
      refine ⟨z :: xs, x, ys, rfl, ?_, ?_, ?_⟩
      · rw [List.map_cons, hText, List.map_cons, Lexeme.settled_text]
      · rw [List.map_cons, List.map_cons, hParts, List.map_cons, List.map_cons,
          Lexeme.settled_isNamePart]
      · have hBefore : ∀ between, endsInPart ((z.settled between).kind :: us.map Lexeme.kind) =
            endsInPart (z.kind :: us.map Lexeme.kind) := by
          intro between
          refine TokenKind.endsInPart_congr ?_
          rw [List.map_cons, List.map_cons, Lexeme.settled_isNamePart]
        rw [List.map_cons, joins, joins, TokenKind.endsInPart_append_cons, hBefore]
        rfl

/-- A dot among the decided lexemes stands between two parts of a name. -/
theorem joins_of_dot {source : List Char} {us vs : List Lexeme} {y : Lexeme}
    (h : settledLexemes d source = us ++ y :: vs) (hDot : y.kind = .dot) :
    joins (us.map Lexeme.kind) (vs.map Lexeme.kind) = true := by
  obtain ⟨xs, x, ys, -, -, -, rfl⟩ := exists_of_settleDots_append h
  exact Lexeme.between_of_settled_dot hDot

/-! ### Reading a dot -/

/-- The kind that a text is read after is that of the lexeme before it. -/
theorem Reads.after_eq {before after : Option TokenKind} {text rest : List Char}
    {xs : List Lexeme} (h : Reads d before text xs after rest) :
    after = (before.toList ++ xs.map Lexeme.kind).getLast? := by
  induction h with
  | done before text => cases before <;> rfl
  | plain _ _ _ ih =>
    rw [ih, List.map_cons, List.getLast?_append_cons]
    rfl
  | @region before after text beyond rest xs _ hBeyond _ ih =>
    -- the last lexeme of the region is its closing quote
    obtain ⟨inside, hLexemes, -⟩ := Region.scan_closed hBeyond
    have hSplit : before.toList ++
        (Lexeme.quote :: ((Region.scan d 0 text).lexemes ++ xs)).map Lexeme.kind =
          (before.toList ++ (Lexeme.quote :: inside).map Lexeme.kind) ++
            TokenKind.regionQuote :: xs.map Lexeme.kind := by
      rw [hLexemes]
      simp [Lexeme.kind, Lexeme.quote, Verdict.kind]
    rw [ih, hSplit, List.getLast?_append_cons]
    rfl

/-- **What is read at a dot.** -/
theorem Lexeme.next_dot (hd : d.Valid) (before : Option TokenKind) (rest : List Char) :
    next d before ('.' :: rest) =
      if Number.startsDigit rest = true ∧ before.any isNamePart = false then
        .accept .number (Number.length ('.' :: rest))
      else .accept .dot 1 := by
  obtain ⟨hOpen, hClose⟩ := Placeholder.starts_of_ne (c := '.') (by decide) (by decide) rest
  have hFraction : Number.startsFraction ('.' :: rest) = Number.startsDigit rest := rfl
  have hDigit : Number.startsDigit ('.' :: rest) = false := rfl
  split
  · next hNumber =>
    have hFound : Symbol.number? before ('.' :: rest) =
        some (.accept .number (Number.length ('.' :: rest))) := by
      rw [Symbol.number?, hFraction, hNumber.1, hNumber.2]
      simp
    have hReserved : Dialect.isReserved '.' = true := by decide
    rw [next_eq_late (by decide) (by decide) (by decide) hOpen hClose]
    simp [Recogniser.firstOf, lateForms, Symbol.string?, Symbol.quotedIdentifier?,
      hd.not_identifierQuote hReserved, hFound]
  · next hNumber =>
    refine next_of_mark hd rfl hOpen hClose ?_
    rw [Symbol.number?, hFraction, hDigit]
    simpa using hNumber

theorem Match.head?_lexeme {m : Match} {text : List Char} (h : 0 < m.length) :
    (m.lexeme text).text.head? = text.head? := by
  rw [Match.lexeme, List.head?_take, if_neg (Nat.ne_of_gt h)]

/-- The verdicts that a text with a dot in front can get. -/
theorem verdict_of_dot (hd : d.Valid) (before : Option TokenKind) (text : List Char) :
    ∀ x ∈ lexemes d before text, x.text.head? = some '.' →
      x.verdict ∈ [accept .number, accept .dot, reject .unexpectedRegionText] := by
  apply forall_mem_lexemes
  · intro before c rest hDot
    rw [Match.head?_lexeme (Lexeme.next_pos d before (c :: rest)), List.head?_cons,
      Option.some.injEq] at hDot
    subst hDot
    rw [Lexeme.next_dot hd, Match.lexeme]
    split <;> simp
  · intro count c rest hDot
    rw [Match.head?_lexeme (Region.next_pos d count c rest), List.head?_cons,
      Option.some.injEq] at hDot
    subst hDot
    obtain ⟨hOpen, -⟩ := Placeholder.starts_of_ne (c := '.') (by decide) (by decide) rest
    rw [Region.next_of_content d (by decide) hOpen (fun hQuote => by cases hQuote), Match.lexeme]
    simp
  · intro hDot
    cases hDot

/-- **What a lexeme with a dot in front is**, outside quoted regions: a number if a digit
follows and no part of a name stands before it, and otherwise the dot alone. -/
theorem lexeme_of_dot (hd : d.Valid) {source : List Char} {xs ys : List Lexeme} {x : Lexeme}
    (h : lexemes d none source = xs ++ x :: ys) (hDot : x.text.head? = some '.')
    (hOuter : x.verdict ≠ reject .unexpectedRegionText) :
    ∃ rest, textOf (x :: ys) = '.' :: rest ∧
      if Number.startsDigit rest = true ∧ endsInPart (xs.map Lexeme.kind) = false then
        x.kind = .number
      else x = ⟨['.'], accept .dot⟩ := by
  have hVerdict := verdict_of_dot hd none source x (by rw [h]; simp) hDot
  have hKind : x.kind.isOuter = true := by
    simp only [List.mem_cons, List.not_mem_nil, or_false, hOuter] at hVerdict
    rw [Lexeme.kind]
    rcases hVerdict with hNumber | hDot
    · rw [hNumber]
      rfl
    · rw [hDot]
      rfl
  -- the place where `x` is read, and the step made there
  obtain ⟨after, hReads, hStep, -⟩ := Lexeme.exists_place hKind h
  have hAfter : after = (xs.map Lexeme.kind).getLast? := hReads.after_eq
  obtain ⟨text, verdict⟩ := x
  obtain ⟨more, rfl⟩ : ∃ more, text = '.' :: more := List.head?_eq_some_iff.1 hDot
  refine ⟨more ++ textOf ys, rfl, ?_⟩
  rw [textOf_cons, List.cons_append, Lexeme.next_dot hd, hAfter] at hStep
  rw [endsInPart]
  split at hStep
  · next hNumber =>
    rw [if_pos hNumber]
    exact (congrArg Match.kind hStep).symm
  · next hNumber =>
    rw [if_neg hNumber]
    have hLength : 1 = more.length + 1 := congrArg Match.length hStep
    have hKind : TokenKind.dot = verdict.kind := congrArg Match.kind hStep
    rw [List.length_eq_zero_iff.1 (Nat.succ.inj hLength).symm,
      (Verdict.kind_eq_iff (by decide)).1 hKind.symm]

/-- **What becomes of such a lexeme** once the dots are decided. -/
theorem settledLexeme_of_dot (hd : d.Valid) {source : List Char} {us vs : List Lexeme}
    {y : Lexeme} (h : settledLexemes d source = us ++ y :: vs) (hDot : y.text.head? = some '.')
    (hOuter : y.verdict ≠ reject .unexpectedRegionText) :
    ∃ rest, source = textOf us ++ ['.'] ++ rest ∧
      (y.kind = .number ↔
        Number.startsDigit rest = true ∧ endsInPart (us.map Lexeme.kind) = false) ∧
      (y.kind = .dot ↔ joins (us.map Lexeme.kind) (vs.map Lexeme.kind) = true) ∧
      (y.kind ≠ .number → y.text = ['.'] ∧ (y.kind ≠ .dot → y.verdict = reject .strayDot)) := by
  obtain ⟨xs, x, ys, hLexemes, hText, hParts, rfl⟩ := exists_of_settleDots_append h
  rw [Lexeme.settled_text] at hDot
  have hInner : x.verdict ≠ reject .unexpectedRegionText := by
    intro hReject
    have hKind : x.kind ≠ .dot := by
      rw [Lexeme.kind, hReject]
      decide
    rw [Lexeme.settled_of_ne_dot hKind] at hOuter
    exact hOuter hReject
  obtain ⟨rest, hRest, hKind⟩ := lexeme_of_dot hd hLexemes hDot hInner
  have hSource : source = textOf us ++ ['.'] ++ rest := by
    rw [← textOf_congr hText, List.append_assoc, List.singleton_append, ← hRest, ← textOf_append,
      ← hLexemes]
    exact (text_lexemes d none source).symm
  refine ⟨rest, hSource, ?_⟩
  rw [TokenKind.endsInPart_congr hParts] at hKind
  split at hKind
  · next hNumber =>
    rw [Lexeme.settled_of_ne_dot (by rw [hKind]; decide), hKind]
    refine ⟨iff_of_true rfl hNumber, iff_of_false (by decide) ?_, fun hOther => absurd rfl hOther⟩
    rw [joins, hNumber.2]
    exact Bool.false_ne_true
  · next hNumber =>
    rw [hKind, Option.toList_none, List.nil_append]
    cases joins (us.map Lexeme.kind) (vs.map Lexeme.kind) with
    | true =>
      exact ⟨iff_of_false (by decide) hNumber, iff_of_true rfl rfl,
        fun _ => ⟨rfl, fun hOther => absurd rfl hOther⟩⟩
    | false =>
      exact ⟨iff_of_false (by decide) hNumber, iff_of_false (by decide) Bool.false_ne_true,
        fun _ => ⟨rfl, fun _ => rfl⟩⟩

/-! ### The tokens of a source -/

theorem endsInPart_tokensAt (p : Position) (xs : List Lexeme) :
    (tokensAt p xs).getLast?.any (·.kind.isNamePart) = endsInPart (xs.map Lexeme.kind) := by
  rw [← kind_tokensAt p, endsInPart, List.getLast?_map, Option.any_map]

theorem startsWithPart_tokensAt (p : Position) (xs : List Lexeme) :
    (tokensAt p xs).head?.any (·.kind.isNamePart) = startsWithPart (xs.map Lexeme.kind) := by
  rw [← kind_tokensAt p, startsWithPart, List.head?_map, Option.any_map]

/-- A token that is a dot stands between two parts of a name. -/
theorem parts_of_dot {source : List Char} {before after : List Token} {t : Token}
    (hTokens : (d.scan source).tokens = before ++ t :: after) (hDot : t.kind = .dot) :
    before.getLast?.any (·.kind.isNamePart) = true ∧
      after.head?.any (·.kind.isNamePart) = true := by
  rw [scan_eq] at hTokens
  obtain ⟨us, ws, hLexemes, rfl, hRest⟩ := tokensAt_eq_append_iff.1 hTokens
  obtain ⟨y, vs, rfl, rfl, rfl⟩ := tokensAt_eq_cons_iff.1 hRest
  rw [endsInPart_tokensAt, startsWithPart_tokensAt, ← Bool.and_eq_true_iff]
  exact joins_of_dot hLexemes hDot

/-- A rejected lexeme has its diagnostic. -/
theorem mem_diagnosticsAt_of_reject {y : Lexeme} {fault : Fault} (h : y.verdict = reject fault)
    (p : Position) (us vs : List Lexeme) :
    ⟨fault, Span.ofText (p.advance (textOf us)) y.text⟩ ∈ diagnosticsAt p (us ++ y :: vs) := by
  rw [diagnosticsAt_append, diagnosticsAt_cons, h]
  simp [TokenStream.diagnostic?]

/-- **Every dot is decided by its neighbours.**  A token with a dot in front, unless it is the
rejected text of a quoted region, is a number exactly if a digit follows the dot and the token
before it is no part of a name.  Otherwise it is the dot alone: a dot exactly if the tokens
before and after it are parts of a name, and else a stray one. -/
theorem scan_dot (d : Dialect) (hd : d.Valid) (source : List Char) (before after : List Token)
    (t : Token) (hTokens : (d.scan source).tokens = before ++ t :: after)
    (hDot : (t.text source).head? = some '.')
    (hOuter : ⟨.unexpectedRegionText, t.span⟩ ∉ (d.scan source).diagnostics) :
    (t.kind = .number ↔
        Number.startsDigit (Text.dropBytes (t.span.start + 1) source) = true ∧
          before.getLast?.any (·.kind.isNamePart) = false) ∧
      (t.kind = .dot ↔
        before.getLast?.any (·.kind.isNamePart) = true ∧
          after.head?.any (·.kind.isNamePart) = true) ∧
      (t.kind ≠ .number → t.text source = ['.'] ∧
        (t.kind ≠ .dot →
          t.kind = .error ∧ ⟨.strayDot, t.span⟩ ∈ (d.scan source).diagnostics)) := by
  rw [scan_eq] at hTokens hOuter ⊢
  obtain ⟨us, ws, hLexemes, rfl, hRest⟩ := tokensAt_eq_append_iff.1 hTokens
  obtain ⟨y, vs, rfl, rfl, rfl⟩ := tokensAt_eq_cons_iff.1 hRest
  have hText : Token.text source ⟨y.kind, Span.ofText (Position.start.advance (textOf us)) y.text⟩ =
      y.text := by
    rw [← textOf_settledLexemes d source, hLexemes, textOf_append, textOf_cons]
    exact text_ofText _ _ _ _
  rw [hText] at hDot ⊢
  rw [hLexemes] at hOuter ⊢
  obtain ⟨rest, hSource, hNumber, hKind, hStray⟩ := settledLexeme_of_dot hd hLexemes hDot
    (fun hReject => hOuter (mem_diagnosticsAt_of_reject hReject _ _ _))
  have hDrop : Text.dropBytes
      ((Span.ofText (Position.start.advance (textOf us)) y.text).start + 1) source = rest := by
    have hStart : (Span.ofText (Position.start.advance (textOf us)) y.text).start + 1 =
        Text.byteLength (textOf us ++ ['.']) := by
      rw [Text.byteLength_append, Span.ofText, start_advance_offset]
      rfl
    rw [hStart, hSource, Text.dropBytes_append]
  rw [hDrop, endsInPart_tokensAt, startsWithPart_tokensAt, ← Bool.and_eq_true_iff]
  refine ⟨hNumber, hKind, fun hOther => ⟨(hStray hOther).1, fun hNoDot => ?_⟩⟩
  have hReject := (hStray hOther).2 hNoDot
  exact ⟨congrArg Verdict.kind hReject, mem_diagnosticsAt_of_reject hReject _ _ _⟩

/-- A digit after a name and a dot: the dot starts no number, and it is a stray one. -/
theorem scan_dot_beforeDigit :
    (Preset.standard.rules.scan "a.5".toList).tokens =
        [⟨.identifier, ⟨0, 1, 1, 1⟩⟩] ++ ⟨.error, ⟨1, 2, 1, 2⟩⟩ :: [⟨.number, ⟨2, 3, 1, 3⟩⟩] ∧
      Token.text "a.5".toList ⟨.error, ⟨1, 2, 1, 2⟩⟩ = ['.'] ∧
      ⟨.strayDot, ⟨1, 2, 1, 2⟩⟩ ∈ (Preset.standard.rules.scan "a.5".toList).diagnostics := by
  have hTokens : (Preset.standard.rules.scan "a.5".toList).tokens =
      [⟨.identifier, ⟨0, 1, 1, 1⟩⟩] ++ ⟨.error, ⟨1, 2, 1, 2⟩⟩ :: [⟨.number, ⟨2, 3, 1, 3⟩⟩] := by
    decide +kernel
  have hDecided := scan_dot Preset.standard.rules (Preset.rules_valid .standard) "a.5".toList
    _ _ _ hTokens (by decide +kernel) (by decide +kernel)
  obtain ⟨hText, hStray⟩ := hDecided.2.2 (by decide)
  exact ⟨hTokens, hText, (hStray (by decide)).2⟩

end SqlTemplate
