import SqlTemplate.Proofs.Coverage
import SqlTemplate.Proofs.RegionBody

/-!
# Quoted regions in a text

The quotes of quoted regions come in pairs.  `Paired` says how lexemes are made
up of plain ones, of regions that close and of at most one region that does
not, which is then the last.  Reading gives lexemes of that kind
(`paired_lexemes`), and deciding the dots keeps them so (`Paired.settleDots`).
What this means for the tokens and the diagnostics is `RegionDiscipline`, and
`scan_regionDiscipline` shows it for every text.
-/

namespace SqlTemplate

open Verdict (accept reject)

variable {d : Dialect}

/-- Whether a token of this kind can stand inside a quoted region. -/
def TokenKind.isInner : TokenKind → Bool
  | .whitespace | .placeholder | .error => true
  | _ => false

theorem Region.isInner_of_mem : ∀ v ∈ Region.innerVerdicts, v.kind.isInner = true := by
  decide

/-- Lexemes in which the quotes of regions come in pairs. -/
inductive Paired (d : Dialect) : List Lexeme → Prop
  | nil : Paired d []
  | plain {x : Lexeme} {xs : List Lexeme} : x.kind ≠ .regionQuote →
      x.verdict ≠ reject .unterminatedRegion → Paired d xs → Paired d (x :: xs)
  | closed {inside xs : List Lexeme} : Region.Inside d inside → Paired d xs →
      Paired d (Lexeme.quote :: (inside ++ Lexeme.quote :: xs))
  | unclosed {inside : List Lexeme} : (∀ x ∈ inside, x.verdict ∈ Region.innerVerdicts) →
      Paired d (Lexeme.openQuote :: inside)

/-! ### Reading gives paired lexemes -/

theorem Lexeme.next_ne_unterminatedRegion (d : Dialect) (before : Option TokenKind)
    (text : List Char) : (Lexeme.next d before text).verdict ≠ reject .unterminatedRegion := by
  intro hOpen
  rcases Lexeme.next_cases d before text with ⟨f, _, hVerdict⟩ | hNext
  · rw [hOpen] at hVerdict
    cases f <;> revert hVerdict <;> decide
  · rw [hNext] at hOpen
    cases hOpen

theorem paired_lexemes (d : Dialect) (before : Option TokenKind) (text : List Char) :
    Paired d (lexemes d before text) := by
  induction hLength : text.length using Nat.strongRecOn generalizing text before with
  | ind k ih =>
    subst hLength
    by_cases hText : text = []
    · subst hText
      rw [lexemes]
      exact .nil
    · by_cases hQuote : (Lexeme.next d before text).verdict = accept .regionQuote
      · obtain ⟨rest, rfl, hPlan, _⟩ := Lexeme.next_eq_regionQuote hQuote
        cases hAfter : (Region.scan d 0 rest).after with
        | none =>
          rw [lexemes_of_open hQuote hAfter]
          exact .unclosed (Region.scan_open hAfter)
        | some after =>
          have hShort := Region.length_after_lt hAfter
          obtain ⟨inside, hLexemes, hInside⟩ := Region.exists_inside hPlan hAfter
          rw [lexemes_of_closed hQuote hAfter, hLexemes, List.append_assoc]
          exact .closed hInside (ih after.length (by rw [List.length_cons]; omega) _ _ rfl)
      · have hPos := Lexeme.next_pos d before text
        have hCons := List.length_pos_iff.2 hText
        rw [lexemes_of_plain hText hQuote]
        refine .plain (mt (Verdict.kind_eq_iff (by decide)).1 hQuote)
          (Lexeme.next_ne_unterminatedRegion d before text) (ih _ ?_ _ _ rfl)
        rw [List.length_drop]
        omega

theorem kind_ne_of_inner {x : Lexeme} (h : x.verdict ∈ Region.innerVerdicts) {kind : TokenKind}
    (hKind : kind.isInner = false) : x.kind ≠ kind := by
  rintro rfl
  rw [Lexeme.kind, Region.isInner_of_mem x.verdict h] at hKind
  cases hKind

theorem settleDots_append_of_ne {xs : List Lexeme} (h : ∀ x ∈ xs, x.kind ≠ .dot)
    (before : Option TokenKind) (ys : List Lexeme) :
    ∃ before', settleDots before (xs ++ ys) = xs ++ settleDots before' ys := by
  induction xs generalizing before with
  | nil => exact ⟨before, rfl⟩
  | cons x xs ih =>
    obtain ⟨before', hRest⟩ := ih (fun y hy => h y (List.mem_cons_of_mem x hy)) (some x.kind)
    refine ⟨before', ?_⟩
    rw [List.cons_append, settleDots, hRest, Lexeme.settled_of_ne_dot (h x List.mem_cons_self),
      List.cons_append]

theorem Paired.settleDots {xs : List Lexeme} (h : Paired d xs) (before : Option TokenKind) :
    Paired d (settleDots before xs) := by
  induction h generalizing before with
  | nil => exact .nil
  | @plain x xs hKind hOpen _ ih =>
    rw [SqlTemplate.settleDots]
    rcases x.settled_cases (before.any (·.isNamePart) && xs.head?.any (·.kind.isNamePart)) with
      hSelf | ⟨text, -, -, hStray⟩
    · rw [hSelf]
      exact .plain hKind hOpen (ih _)
    · rw [hStray]
      exact .plain (fun hError => by cases hError) (fun hError => by cases hError) (ih _)
  | @closed inside xs hInside _ ih =>
    have hNoDot : ∀ x ∈ Lexeme.quote :: (inside ++ [Lexeme.quote]), x.kind ≠ .dot := by
      intro x hx
      simp only [List.mem_cons, List.mem_append, List.not_mem_nil, or_false] at hx
      rcases hx with rfl | hMem | rfl
      · exact fun hDot => by cases hDot
      · exact kind_ne_of_inner (hInside.verdicts x hMem) rfl
      · exact fun hDot => by cases hDot
    obtain ⟨before', hSettled⟩ := settleDots_append_of_ne hNoDot before xs
    rw [List.cons_append, List.append_assoc, List.singleton_append] at hSettled
    rw [hSettled, List.cons_append, List.append_assoc, List.singleton_append]
    exact .closed hInside (ih before')
  | @unclosed inside hInside =>
    have hNoDot : ∀ x ∈ Lexeme.openQuote :: inside, x.kind ≠ .dot := by
      intro x hx
      rcases List.mem_cons.1 hx with rfl | hMem
      · exact fun hDot => by cases hDot
      · exact kind_ne_of_inner (hInside x hMem) rfl
    obtain ⟨before', hSettled⟩ := settleDots_append_of_ne hNoDot before []
    rw [List.append_nil] at hSettled
    rw [hSettled, SqlTemplate.settleDots, List.append_nil]
    exact .unclosed hInside

theorem paired_settledLexemes (d : Dialect) (source : List Char) :
    Paired d (settledLexemes d source) :=
  (paired_lexemes d none source).settleDots none

/-! ### What paired lexemes look like -/

namespace Paired

/-- The number of quotes of regions. -/
def quotes (xs : List Lexeme) : Nat := xs.countP (·.kind = .regionQuote)

theorem ne_unterminatedRegion_of_inner {x : Lexeme} (h : x.verdict ∈ Region.innerVerdicts) :
    x.verdict ≠ reject .unterminatedRegion := by
  intro hOpen
  rw [hOpen] at h
  exact absurd h (by decide)

theorem quotes_inside {inside : List Lexeme} (h : ∀ x ∈ inside, x.verdict ∈ Region.innerVerdicts) :
    quotes inside = 0 := by
  refine List.countP_eq_zero.2 fun x hx => ?_
  simpa using kind_ne_of_inner (h x hx) rfl

@[simp] theorem quotes_nil : quotes [] = 0 := rfl

@[simp] theorem quotes_append (xs ys : List Lexeme) :
    quotes (xs ++ ys) = quotes xs + quotes ys := List.countP_append

@[simp] theorem quotes_quote_cons (xs : List Lexeme) :
    quotes (Lexeme.quote :: xs) = quotes xs + 1 :=
  List.countP_cons_of_pos (by decide)

theorem quotes_cons_of_ne {x : Lexeme} (h : x.kind ≠ .regionQuote) (xs : List Lexeme) :
    quotes (x :: xs) = quotes xs :=
  List.countP_cons_of_neg (by simpa using h)

theorem quotes_even {xs : List Lexeme} (h : Paired d xs) : quotes xs % 2 = 0 := by
  induction h with
  | nil => rfl
  | plain hKind _ _ ih => rwa [quotes_cons_of_ne hKind]
  | closed hInside _ ih =>
    rw [quotes_quote_cons, quotes_append, quotes_quote_cons, quotes_inside hInside.verdicts]
    omega
  | unclosed hInside =>
    rw [quotes_cons_of_ne (fun hKind => by cases hKind), quotes_inside hInside]

theorem eq_quote {xs : List Lexeme} (h : Paired d xs) :
    ∀ x ∈ xs, x.kind = .regionQuote → x = Lexeme.quote := by
  induction h with
  | nil => simp
  | plain hKind _ _ ih =>
    intro x hx hQuote
    rcases List.mem_cons.1 hx with rfl | hMem
    · exact absurd hQuote hKind
    · exact ih x hMem hQuote
  | closed hInside _ ih =>
    intro x hx hQuote
    simp only [List.mem_cons, List.mem_append] at hx
    rcases hx with rfl | hMem | rfl | hMem
    · rfl
    · exact absurd hQuote (kind_ne_of_inner (hInside.verdicts x hMem) rfl)
    · rfl
    · exact ih x hMem hQuote
  | unclosed hInside =>
    intro x hx hQuote
    rcases List.mem_cons.1 hx with rfl | hMem
    · cases hQuote
    · exact absurd hQuote (kind_ne_of_inner (hInside x hMem) rfl)

/-- The first quote of a region is found in one way only. -/
theorem append_quote_inj {us vs xs ys : List Lexeme} {x y : Lexeme}
    (hus : ∀ u ∈ us, u.kind ≠ .regionQuote) (hvs : ∀ v ∈ vs, v.kind ≠ .regionQuote)
    (hx : x.kind = .regionQuote) (hy : y.kind = .regionQuote)
    (h : us ++ x :: xs = vs ++ y :: ys) : us = vs := by
  induction us generalizing vs with
  | nil =>
    cases vs with
    | nil => rfl
    | cons v vs =>
      rw [List.nil_append, List.cons_append, List.cons.injEq] at h
      exact absurd (h.1 ▸ hx) (hvs v List.mem_cons_self)
  | cons u us ih =>
    cases vs with
    | nil =>
      rw [List.nil_append, List.cons_append, List.cons.injEq] at h
      exact absurd (h.1 ▸ hy) (hus u List.mem_cons_self)
    | cons v vs =>
      rw [List.cons_append, List.cons_append, List.cons.injEq] at h
      rw [h.1, ih (fun w hw => hus w (List.mem_cons_of_mem u hw))
        (fun w hw => hvs w (List.mem_cons_of_mem v hw)) h.2]

/-- **Between the two quotes of a pair stands the inside of a region.** -/
theorem inside_of_split {xs : List Lexeme} (h : Paired d xs) :
    ∀ {before inside after : List Lexeme} {opener closer : Lexeme},
      xs = before ++ opener :: (inside ++ closer :: after) → quotes before % 2 = 0 →
        opener.kind = .regionQuote → (∀ x ∈ inside, x.kind ≠ .regionQuote) →
          closer.kind = .regionQuote → Region.Inside d inside := by
  induction h with
  | nil =>
    intro before inside after opener closer hSplit
    cases before <;> cases hSplit
  | plain hKind _ _ ih =>
    intro before inside after opener closer hSplit hEven hOpener hInside hCloser
    cases before with
    | nil =>
      rw [List.nil_append, List.cons.injEq] at hSplit
      rw [hSplit.1] at hKind
      exact absurd hOpener hKind
    | cons b before =>
      rw [List.cons_append, List.cons.injEq] at hSplit
      rw [hSplit.1] at hKind
      rw [quotes_cons_of_ne hKind] at hEven
      exact ih hSplit.2 hEven hOpener hInside hCloser
  | @closed region xs hRegion _ ih =>
    intro before inside after opener closer hSplit hEven hOpener hInside hCloser
    have hNone := quotes_inside hRegion.verdicts
    cases before with
    | nil =>
      rw [List.nil_append, List.cons.injEq] at hSplit
      have hRegionKinds : ∀ x ∈ region, x.kind ≠ .regionQuote :=
        fun x hx => kind_ne_of_inner (hRegion.verdicts x hx) rfl
      rwa [← append_quote_inj hRegionKinds hInside rfl hCloser hSplit.2]
    | cons b before =>
      rw [List.cons_append, List.cons.injEq] at hSplit
      obtain ⟨rfl, hRest⟩ := hSplit
      rw [quotes_quote_cons] at hEven
      -- an odd number of quotes has gone by, so the closing quote is among them
      rcases List.append_eq_append_iff.1 hRest with ⟨more, rfl, hMore⟩ | ⟨more, rfl, _⟩
      · rw [quotes_append, hNone] at hEven
        cases more with
        | nil =>
          rw [quotes_nil] at hEven
          omega
        | cons a more =>
          rw [List.cons_append, List.cons.injEq] at hMore
          obtain ⟨rfl, rfl⟩ := hMore
          rw [quotes_quote_cons] at hEven
          exact ih rfl (by omega) hOpener hInside hCloser
      · rw [quotes_append] at hNone
        omega
  | @unclosed region hRegion =>
    intro before inside after opener closer hSplit _ hOpener
    have hMem : opener ∈ Lexeme.openQuote :: region := by
      rw [hSplit]
      simp
    rcases List.mem_cons.1 hMem with rfl | hMem
    · cases hOpener
    · exact absurd hOpener (kind_ne_of_inner (hRegion opener hMem) rfl)

/-- **A region that is never closed is the last one.** -/
theorem unterminated {xs : List Lexeme} (h : Paired d xs) :
    xs.countP (·.verdict = reject .unterminatedRegion) ≤ 1 ∧
      ∀ us x vs, xs = us ++ x :: vs → x.verdict = reject .unterminatedRegion →
        x = Lexeme.openQuote ∧ ∀ y ∈ vs, y.verdict ∈ Region.innerVerdicts := by
  have hNone : ∀ ys : List Lexeme, (∀ y ∈ ys, y.verdict ∈ Region.innerVerdicts) →
      ys.countP (·.verdict = reject .unterminatedRegion) = 0 := by
    intro ys hys
    refine List.countP_eq_zero.2 fun y hy => ?_
    simpa using ne_unterminatedRegion_of_inner (hys y hy)
  induction h with
  | nil => simp
  | @plain z xs _ hOpen _ ih =>
    refine ⟨?_, ?_⟩
    · rw [List.countP_cons_of_neg (by simpa using hOpen)]
      exact ih.1
    · intro us x vs hSplit hVerdict
      cases us with
      | nil =>
        rw [List.nil_append, List.cons.injEq] at hSplit
        rw [hSplit.1] at hOpen
        exact absurd hVerdict hOpen
      | cons u us =>
        rw [List.cons_append, List.cons.injEq] at hSplit
        exact ih.2 us x vs hSplit.2 hVerdict
  | @closed inside xs hInside _ ih =>
    have hPlain : ∀ y ∈ Lexeme.quote :: (inside ++ [Lexeme.quote]),
        y.verdict ≠ reject .unterminatedRegion := by
      intro y hy
      simp only [List.mem_cons, List.mem_append, List.not_mem_nil, or_false] at hy
      rcases hy with rfl | hMem | rfl
      · exact fun hOpen => by cases hOpen
      · exact ne_unterminatedRegion_of_inner (hInside.verdicts y hMem)
      · exact fun hOpen => by cases hOpen
    have hEq : Lexeme.quote :: (inside ++ Lexeme.quote :: xs) =
        (Lexeme.quote :: (inside ++ [Lexeme.quote])) ++ xs := by simp
    rw [hEq]
    refine ⟨?_, ?_⟩
    · rw [List.countP_append, List.countP_eq_zero.2 (by simpa using hPlain), Nat.zero_add]
      exact ih.1
    · intro us x vs hSplit hVerdict
      rcases List.append_eq_append_iff.1 hSplit with ⟨more, rfl, hMore⟩ | ⟨more, hIn, hMore⟩
      · exact ih.2 more x vs hMore hVerdict
      · cases more with
        | nil => exact ih.2 [] x vs hMore.symm hVerdict
        | cons m more =>
          rw [List.cons_append, List.cons.injEq] at hMore
          refine absurd hVerdict (hPlain x ?_)
          rw [hIn, hMore.1]
          simp
  | @unclosed inside hInside =>
    refine ⟨?_, ?_⟩
    · rw [List.countP_cons, hNone inside hInside]
      split <;> omega
    · intro us x vs hSplit hVerdict
      cases us with
      | nil =>
        rw [List.nil_append, List.cons.injEq] at hSplit
        obtain ⟨rfl, rfl⟩ := hSplit
        exact ⟨rfl, hInside⟩
      | cons u us =>
        rw [List.cons_append, List.cons.injEq] at hSplit
        refine absurd hVerdict (ne_unterminatedRegion_of_inner (hInside x ?_))
        rw [hSplit.2]
        simp

end Paired

/-! ### Regions among the tokens -/

/-- These tokens stand between the two quotes of a region: whitespace, errors and
at most one placeholder.  One of them at least starts with two braces, and none
of them is an error exactly if the source has, from quote to quote, nothing but
one well-formed placeholder with whitespace around it. -/
structure IsRegion (d : Dialect) (source : List Char) (opener : Token) (inside : List Token)
    (closer : Token) : Prop where
  inner : ∀ t ∈ inside, t.kind.isInner = true
  one : inside.countP (·.kind = .placeholder) ≤ 1
  braces : ∃ t ∈ inside, Placeholder.startsOpen (t.text source) = true
  faultless_iff : (∀ t ∈ inside, t.kind ≠ .error) ↔
    ∃ left p right,
      Text.slice opener.span.start closer.span.stop source =
        '\'' :: (left ++ (p ++ (right ++ ['\'']))) ∧
      (∀ c ∈ left, Text.isSpace c = true) ∧ Placeholder.IsWhole d p ∧
      ∀ c ∈ right, Text.isSpace c = true

/-- The quotes of regions come in pairs with a region between them, and a region
that is never closed is the last thing in the source.  Two quotes are a pair if
an even number of quotes stands before them and none between them. -/
structure RegionDiscipline (d : Dialect) (source : List Char) (stream : TokenStream) : Prop where
  even : stream.tokens.countP (·.kind = .regionQuote) % 2 = 0
  quote : ∀ t ∈ stream.tokens, t.kind = .regionQuote → t.text source = ['\'']
  region : ∀ before opener inside closer after,
    stream.tokens = before ++ opener :: (inside ++ closer :: after) →
    before.countP (·.kind = .regionQuote) % 2 = 0 →
    opener.kind = .regionQuote → (∀ t ∈ inside, t.kind ≠ .regionQuote) →
    closer.kind = .regionQuote → IsRegion d source opener inside closer
  unterminated_le : stream.diagnostics.countP (·.fault = .unterminatedRegion) ≤ 1
  unterminated : ∀ e ∈ stream.diagnostics, e.fault = .unterminatedRegion →
    ∃ before t after, stream.tokens = before ++ t :: after ∧ t = ⟨.error, e.span⟩ ∧
      t.text source = ['\''] ∧ ∀ u ∈ after, u.kind.isInner = true

theorem Region.Inside.isRegion {inside : List Lexeme} (h : Region.Inside d inside)
    (us vs : List Lexeme) :
    IsRegion d (textOf (us ++ Lexeme.quote :: (inside ++ Lexeme.quote :: vs)))
      ⟨.regionQuote, Span.ofText (Position.start.advance (textOf us)) ['\'']⟩
      (tokensAt (Position.start.advance (textOf us ++ ['\''])) inside)
      ⟨.regionQuote, Span.ofText (Position.start.advance (textOf us ++ ['\''] ++ textOf inside))
        ['\'']⟩ where
  inner := (forall_kind_tokensAt (P := (·.isInner = true))).2
    fun x hx => Region.isInner_of_mem _ (h.verdicts x hx)
  one := by
    rw [countP_kind_tokensAt (· = .placeholder)]
    exact h.one
  braces := by
    obtain ⟨x, hx, hOpen⟩ := h.opener
    have hTexts := text_tokensAt (textOf us ++ ['\'']) inside ('\'' :: textOf vs)
    have hMem : x.text ∈ inside.map Lexeme.text := List.mem_map_of_mem hx
    rw [← hTexts] at hMem
    obtain ⟨t, ht, hText⟩ := List.mem_map.1 hMem
    refine ⟨t, ht, ?_⟩
    have hSource : textOf (us ++ Lexeme.quote :: (inside ++ Lexeme.quote :: vs)) =
        textOf us ++ ['\''] ++ (textOf inside ++ '\'' :: textOf vs) := by
      simp [Lexeme.quote]
    rw [hSource, hText]
    exact hOpen
  faultless_iff := by
    rw [forall_kind_tokensAt (P := (· ≠ .error)), h.faultless_iff]
    have hSource : textOf (us ++ Lexeme.quote :: (inside ++ Lexeme.quote :: vs)) =
        textOf us ++ (('\'' :: (textOf inside ++ ['\''])) ++ textOf vs) := by
      simp [Lexeme.quote]
    have hStop : (Span.ofText (Position.start.advance (textOf us ++ ['\''] ++ textOf inside))
        ['\'']).stop =
        Text.byteLength (textOf us) + Text.byteLength ('\'' :: (textOf inside ++ ['\''])) := by
      rw [Span.ofText, start_advance_offset]
      simp only [Text.byteLength_append, Text.byteLength_cons, Text.byteLength_nil]
      omega
    have hSlice : Text.slice
        (Span.ofText (Position.start.advance (textOf us)) ['\'']).start
        (Span.ofText (Position.start.advance (textOf us ++ ['\''] ++ textOf inside)) ['\'']).stop
        (textOf (us ++ Lexeme.quote :: (inside ++ Lexeme.quote :: vs))) =
        '\'' :: (textOf inside ++ ['\'']) := by
      rw [hStop, hSource, Span.ofText, start_advance_offset, Text.slice_append]
    simp only [hSlice, List.cons.injEq, true_and, ← List.append_assoc, List.append_left_inj,
      Region.IsForm]

/-- **Quoted regions come in pairs of quotes.**  For every dialect and every text,
the quotes of regions pair up around their regions, and at most one region is
never closed. -/
theorem scan_regionDiscipline (d : Dialect) (source : List Char) :
    RegionDiscipline d source (d.scan source) := by
  have hPaired := paired_settledLexemes d source
  have hSource := textOf_settledLexemes d source
  rw [scan_eq]
  generalize settledLexemes d source = xs at hPaired hSource ⊢
  subst hSource
  refine ⟨?_, ?_, ?_, ?_, ?_⟩
  · rw [countP_kind_tokensAt (· = .regionQuote)]
    exact hPaired.quotes_even
  · intro t ht hKind
    obtain ⟨us, x, vs, rfl, rfl⟩ := mem_tokensAt ht
    rw [hPaired.eq_quote x (by simp) hKind, textOf_append, textOf_cons, text_ofText]
    rfl
  · intro before opener inside closer after hSplit hEven hOpener hInside hCloser
    obtain ⟨us, ws, rfl, rfl, hFrom⟩ := tokensAt_eq_append_iff.1 hSplit
    obtain ⟨x, ws, rfl, rfl, hAfterOpener⟩ := tokensAt_eq_cons_iff.1 hFrom
    obtain ⟨body, zs, rfl, rfl, hFromCloser⟩ := tokensAt_eq_append_iff.1 hAfterOpener
    obtain ⟨y, vs, rfl, rfl, _⟩ := tokensAt_eq_cons_iff.1 hFromCloser
    rw [countP_kind_tokensAt (· = .regionQuote)] at hEven
    have hBody := hPaired.inside_of_split rfl hEven hOpener
      ((forall_kind_tokensAt (P := (· ≠ .regionQuote))).1 hInside) hCloser
    obtain rfl := hPaired.eq_quote x (by simp) hOpener
    obtain rfl := hPaired.eq_quote y (by simp) hCloser
    have hRegion := hBody.isRegion us vs
    simp only [Position.advance_append] at hRegion
    exact hRegion
  · rw [countP_diagnosticsAt]
    exact hPaired.unterminated.1
  · intro e he hFault
    obtain ⟨us, x, vs, rfl, hVerdict, hSpan⟩ := mem_diagnosticsAt he
    rw [hFault] at hVerdict
    obtain ⟨rfl, hInner⟩ := hPaired.unterminated.2 us x vs rfl hVerdict
    refine ⟨tokensAt .start us, ⟨.error, e.span⟩,
      tokensAt (Position.start.advance (textOf us ++ ['\''])) vs, ?_, rfl, ?_, ?_⟩
    · rw [tokensAt_append, tokensAt_cons, ← hSpan, Position.advance_append]
      rfl
    · rw [hSpan, textOf_append, textOf_cons, text_ofText]
      rfl
    · exact (forall_kind_tokensAt (P := (·.isInner = true))).2
        fun y hy => Region.isInner_of_mem _ (hInner y hy)

end SqlTemplate
