import SqlTemplate.Proofs.Placement
import SqlTemplate.Proofs.Run

/-!
# What the scanner records

The scanner keeps tokens and diagnostics apart: it adds to one vector or to
both, changes tokens that it added long before, and finds diagnostics out of
order.  `Scanner.Records` says what the two vectors mean together.  There is one
list of entries, spans with verdicts, which gives the tokens in order and the
diagnostics in some order.

Adding keeps this (`Records.addToken`, `Records.addError`), and so does `demote`
as long as the entry it changes was accepted (`Records.demote`): a token that is
demoted twice would have two diagnostics.  The three moments at which tokens are
demoted are taken one after the other:

* `Stands.stepInside`: a second placeholder is demoted as soon as it is read.
* `Stands.run_open`: the opening quote of a region is an accepted entry until the
  text ends.
* `Records.settleFrom`: the dots, with the settled entries in front of those
  still to be settled.

`Stands.run` puts the steps together by induction over the text, and `scan_eq`
sorts the diagnostics into the order of the tokens.
-/

namespace SqlTemplate

/-! ### Sorting -/

namespace Diagnostic

theorem insertByStart_perm (e : Diagnostic) (es : List Diagnostic) :
    (insertByStart e es).Perm (e :: es) := by
  induction es with
  | nil => exact List.Perm.refl _
  | cons f es ih =>
    rw [insertByStart]
    split
    · exact List.Perm.refl _
    · exact (ih.cons f).trans (List.Perm.swap e f es)

theorem sortByStart_perm (es : List Diagnostic) : (sortByStart es).Perm es := by
  induction es with
  | nil => exact List.Perm.refl _
  | cons e es ih => exact (insertByStart_perm e _).trans (ih.cons e)

theorem pairwise_insertByStart {e : Diagnostic} {es : List Diagnostic}
    (h : es.Pairwise (·.span.start ≤ ·.span.start)) :
    (insertByStart e es).Pairwise (·.span.start ≤ ·.span.start) := by
  induction es with
  | nil => exact List.pairwise_singleton _ _
  | cons f es ih =>
    rw [insertByStart]
    split
    · next hLe =>
      refine List.pairwise_cons.2 ⟨fun g hg => ?_, h⟩
      rcases List.mem_cons.1 hg with rfl | hRest
      · exact hLe
      · exact Nat.le_trans hLe (List.rel_of_pairwise_cons h hRest)
    · next hLt =>
      refine List.pairwise_cons.2 ⟨fun g hg => ?_, ih h.of_cons⟩
      rcases List.mem_cons.1 ((insertByStart_perm e es).mem_iff.1 hg) with rfl | hRest
      · exact Nat.le_of_not_le hLt
      · exact List.rel_of_pairwise_cons h hRest

theorem pairwise_sortByStart (es : List Diagnostic) :
    (sortByStart es).Pairwise (·.span.start ≤ ·.span.start) := by
  induction es with
  | nil => exact List.Pairwise.nil
  | cons e es ih => exact pairwise_insertByStart ih

theorem filter_insertByStart (e : Diagnostic) (es : List Diagnostic) (n : Nat) :
    (insertByStart e es).filter (·.span.start = n) = (e :: es).filter (·.span.start = n) := by
  induction es with
  | nil => rfl
  | cons f es ih =>
    rw [insertByStart]
    split
    · rfl
    · next hLt =>
      -- the two change places only if they start in different ones
      rw [List.filter_cons, ih]
      simp only [List.filter_cons, decide_eq_true_eq]
      split <;> split <;> first | rfl | omega

/-- The sort is stable: diagnostics that start in one place keep their order. -/
theorem filter_sortByStart (es : List Diagnostic) (n : Nat) :
    (sortByStart es).filter (·.span.start = n) = es.filter (·.span.start = n) := by
  induction es with
  | nil => rfl
  | cons e es ih =>
    have hSort : sortByStart (e :: es) = insertByStart e (sortByStart es) := rfl
    rw [hSort, filter_insertByStart, List.filter_cons, ih, List.filter_cons]

/-- Diagnostics that all start in different places are sorted in one way only. -/
theorem sortByStart_eq {es sorted : List Diagnostic} (h : es.Perm sorted)
    (hSorted : sorted.Pairwise (·.span.start < ·.span.start)) : sortByStart es = sorted := by
  have hPerm : (sortByStart es).Perm sorted := (sortByStart_perm es).trans h
  have hLt : (sortByStart es).Pairwise (·.span.start < ·.span.start) := by
    have hNe : (sortByStart es).Pairwise (·.span.start ≠ ·.span.start) :=
      hPerm.symm.pairwise (hSorted.imp Nat.ne_of_lt) Ne.symm
    exact (pairwise_sortByStart es).imp₂ (fun _ _ hLe hNe => Nat.lt_of_le_of_ne hLe hNe) hNe
  refine List.Perm.eq_of_pairwise (fun e f _ _ hef hfe => ?_) hLt hSorted hPerm
  exact absurd hfe (Nat.lt_asymm hef)

end Diagnostic

namespace Scanner

@[simp] theorem demote_position (s : Scanner) (i : Nat) (fault : Fault) :
    (s.demote i fault).position = s.position := by
  unfold demote
  split <;> rfl

/-! ### Entries -/

/-- The vectors of the scanner come from these entries: the tokens in their order,
the diagnostics in any order. -/
structure Records (s : Scanner) (entries : List (Span × Verdict)) : Prop where
  tokens : s.tokens.toList = entries.map TokenStream.token
  diagnostics : s.diagnostics.toList.Perm (entries.filterMap TokenStream.diagnostic?)

/-- The scanner has recorded these entries and goes on in a mode at a position. -/
structure Stands (s : Scanner) (entries : List (Span × Verdict)) (mode : ScanMode)
    (p : Position) : Prop extends Records s entries where
  mode : s.mode = mode
  position : s.position = p

variable {s : Scanner} {es us vs : List (Span × Verdict)} {d : Dialect} {p : Position}

namespace Records

theorem size (h : s.Records es) : s.tokens.size = es.length := by
  rw [← Array.length_toList, h.tokens, List.length_map]

theorem token (h : s.Records es) (i : Nat) : s.tokens[i]? = es[i]?.map TokenStream.token := by
  rw [← Array.getElem?_toList, h.tokens, List.getElem?_map]

theorem previousKind (h : s.Records es) :
    s.previousKind = es.getLast?.map fun entry => entry.2.kind := by
  rw [Scanner.previousKind, ← Array.getLast?_toList, h.tokens, List.getLast?_map, Option.map_map]
  rfl

theorem addToken (h : s.Records es) (kind : TokenKind) (span : Span) :
    (s.addToken kind span).Records (es ++ [(span, .accept kind)]) where
  tokens := by
    rw [Scanner.addToken, Array.toList_push, h.tokens, List.map_append]
    rfl
  diagnostics := by
    rw [List.filterMap_append]
    exact (List.append_nil _).symm ▸ h.diagnostics

theorem addError (h : s.Records es) (fault : Fault) (span : Span) :
    (s.addError fault span).Records (es ++ [(span, .reject fault)]) where
  tokens := by
    rw [Scanner.addError, Array.toList_push, h.tokens, List.map_append]
    rfl
  diagnostics := by
    rw [Scanner.addError, Array.toList_push, List.filterMap_append]
    exact h.diagnostics.append_right _

/-- **An accepted entry can be rejected later.** -/
theorem demote {span : Span} {kind : TokenKind}
    (h : s.Records (us ++ (span, .accept kind) :: vs)) (fault : Fault) :
    (s.demote us.length fault).Records (us ++ (span, .reject fault) :: vs) := by
  have hToken : s.tokens[us.length]? = some ⟨kind, span⟩ := by
    rw [h.token, List.getElem?_append_right (Nat.le_refl _), Nat.sub_self]
    rfl
  have hDemote : s.demote us.length fault =
      { s with
        tokens := s.tokens.setIfInBounds us.length ⟨.error, span⟩
        diagnostics := s.diagnostics.push ⟨fault, span⟩ } := by
    rw [Scanner.demote, hToken]
  rw [hDemote]
  constructor
  · rw [Array.toList_setIfInBounds, h.tokens, List.map_append, List.map_append,
      List.set_append_right _ _ (Nat.le_of_eq (List.length_map _)), List.length_map, Nat.sub_self]
    rfl
  · have hBefore := h.diagnostics.append_right [⟨fault, span⟩]
    rw [List.filterMap_append, List.append_assoc] at hBefore
    rw [Array.toList_push, List.filterMap_append]
    exact hBefore.trans ((List.perm_append_singleton _ _).append_left _)

end Records

/-! ### One step -/

namespace Stands

variable {mode : ScanMode} {opener count : Nat} {text : List Char}

theorem take (h : s.Stands es mode p) (m : Match) (text : List Char) :
    (s.take m text).Stands (es ++ placed p [m.lexeme text]) mode
      (p.advance (m.lexeme text).text) := by
  obtain ⟨hRecords, rfl, rfl⟩ := h
  have hMoved : Records { s with position := s.position.advance (text.take m.length) } es :=
    ⟨hRecords.tokens, hRecords.diagnostics⟩
  obtain ⟨length, verdict⟩ := m
  cases verdict with
  | accept kind => exact ⟨hMoved.addToken kind _, rfl, rfl⟩
  | reject fault => exact ⟨hMoved.addError fault _, rfl, rfl⟩

theorem stepOutside (h : s.Stands es .outside p) {m : Match} (text : List Char)
    (hPlain : m.verdict ≠ .accept .regionQuote) :
    (s.stepOutside m text).Stands (es ++ placed p [m.lexeme text]) .outside
      (p.advance (m.lexeme text).text) := by
  rw [Scanner.stepOutside, if_neg hPlain]
  exact h.take m text

/-- The opening quote of a region is remembered by its place. -/
theorem stepOutside_quote (h : s.Stands es .outside p) {m : Match} (text : List Char)
    (hQuote : m.verdict = .accept .regionQuote) :
    (s.stepOutside m text).Stands (es ++ placed p [m.lexeme text]) (.inside es.length 0)
      (p.advance (m.lexeme text).text) := by
  have hTaken := h.take m text
  have hSize : (s.take m text).tokens.size - 1 = es.length := by
    rw [hTaken.size, List.length_append]
    rfl
  rw [Scanner.stepOutside, if_pos hQuote, hSize]
  exact ⟨⟨hTaken.tokens, hTaken.diagnostics⟩, rfl, hTaken.position⟩

/-- A placeholder in a region: if it is not the first one and was accepted, it is
demoted, and it was accepted only now. -/
theorem stepInside_placeholder (h : s.Stands es (.inside opener count) p) (m : Match)
    (hOpen : Placeholder.startsOpen text = true) :
    (s.stepInside opener count m text).Stands
      (es ++ placed p [(Region.judged count m).lexeme text]) (.inside opener (count + 1))
      (p.advance ((Region.judged count m).lexeme text).text) := by
  have hTaken := h.take m text
  rw [Scanner.stepInside, if_pos hOpen]
  by_cases hSecond : m.kind = .placeholder ∧ 0 < count
  · have hLast : (s.take m text).tokens.size - 1 = es.length := by
      rw [hTaken.size, List.length_append]
      rfl
    have hAccepted : placed p [m.lexeme text] =
        [(Span.ofText p (m.lexeme text).text, .accept .placeholder)] := by
      rw [← (Verdict.kind_eq_iff (by decide)).1 hSecond.1]
      rfl
    have hRecords := hTaken.toRecords
    rw [hAccepted] at hRecords
    have hDemoted := hRecords.demote .secondPlaceholder
    rw [if_pos hSecond, hLast, Region.judged, if_pos (by simpa using hSecond)]
    exact ⟨⟨hDemoted.tokens, hDemoted.diagnostics⟩, rfl,
      (demote_position _ _ _).trans hTaken.position⟩
  · rw [if_neg hSecond, Region.judged, if_neg (by simpa using hSecond)]
    exact ⟨⟨hTaken.tokens, hTaken.diagnostics⟩, rfl, hTaken.position⟩

theorem stepInside (h : s.Stands es (.inside opener count) p) {m : Match}
    (hOpen : Placeholder.startsOpen text = false) :
    (s.stepInside opener count m text).Stands (es ++ placed p [m.lexeme text])
      (if m.verdict = .accept .regionQuote then .outside else .inside opener count)
      (p.advance (m.lexeme text).text) := by
  have hTaken := h.take m text
  rw [Scanner.stepInside, if_neg (by rw [hOpen]; exact Bool.false_ne_true)]
  split
  · exact ⟨⟨hTaken.tokens, hTaken.diagnostics⟩, rfl, hTaken.position⟩
  · exact hTaken

/-- The first step of a run inside a quoted region. -/
theorem run_region (h : s.Stands es (.inside opener count) p) (c : Char) (rest : List Char) :
    ∃ s' : Scanner, s.run d (c :: rest) =
        s'.run d ((c :: rest).drop (Region.next d count (c :: rest)).length) ∧
      s'.Stands (es ++ placed p [(Region.next d count (c :: rest)).lexeme (c :: rest)])
        (if (Region.next d count (c :: rest)).verdict = .accept .regionQuote then .outside
          else .inside opener
            (if Placeholder.startsOpen (c :: rest) then count + 1 else count))
        (p.advance ((Region.next d count (c :: rest)).lexeme (c :: rest)).text) := by
  have hNext : s.next d (c :: rest) = Region.piece d count (c :: rest) := by
    rw [Scanner.next, h.mode]
  refine ⟨s.stepInside opener count (Region.piece d count (c :: rest)) (c :: rest), ?_, ?_⟩
  · rw [Scanner.run, hNext, Region.next_length, Scanner.step, h.mode]
  · by_cases hOpen : Placeholder.startsOpen (c :: rest) = true
    · have hPlain : (Region.next d count (c :: rest)).verdict ≠ .accept .regionQuote := by
        intro hQuote
        obtain ⟨rfl, _⟩ := Region.next_eq_regionQuote hQuote
        rw [Region.startsOpen_apostrophe] at hOpen
        cases hOpen
      have hStep := h.stepInside_placeholder (Region.piece d count (c :: rest)) hOpen
      rw [← Region.next_eq_judged] at hStep
      rw [if_neg hPlain, if_pos hOpen]
      exact hStep
    · rw [Bool.not_eq_true] at hOpen
      simp only [Region.next_eq_piece hOpen, hOpen, Bool.false_eq_true, if_false]
      exact h.stepInside hOpen

/-- A region that closes is recorded with its lexemes, and nothing is demoted that
was there before. -/
theorem run_closed {after : List Char} (hAfter : (Region.scan d count text).after = some after) :
    ∀ (s : Scanner) (es : List (Span × Verdict)) (p : Position),
      s.Stands es (.inside opener count) p →
      ∃ s' : Scanner, s.run d text = s'.run d after ∧
        s'.Stands (es ++ placed p (Region.scan d count text).lexemes) .outside
          (p.advance (textOf (Region.scan d count text).lexemes)) ∧
        s'.previousKind = some .regionQuote := by
  fun_induction Region.scan d count text with
  | case1 => cases hAfter
  | case2 count c rest m remaining hClose =>
    intro s es p h
    obtain ⟨s', hRun, hStands⟩ := h.run_region (d := d) c rest
    rw [if_pos hClose] at hStands
    have hRemaining : remaining = after := Option.some.inj hAfter
    rw [← hRemaining]
    refine ⟨s', hRun, ?_, ?_⟩
    · rw [textOf_cons, textOf_nil, List.append_nil]
      exact hStands
    · rw [hStands.previousKind, placed, placed, List.getLast?_concat]
      exact congrArg (fun v => some (Verdict.kind v)) hClose
  | case3 count c rest m remaining hClose region ih =>
    intro s es p h
    obtain ⟨s', hRun, hStands⟩ := h.run_region (d := d) c rest
    rw [if_neg hClose] at hStands
    obtain ⟨s'', hRun', hStands', hKind⟩ := ih hAfter _ _ _ hStands
    refine ⟨s'', hRun.trans hRun', ?_, hKind⟩
    rw [List.append_assoc] at hStands'
    rw [textOf_cons, Position.advance_append]
    exact hStands'

/-- A region that is never closed: its opening quote is an accepted entry until the
text ends, and is rejected then. -/
theorem run_open (hAfter : (Region.scan d count text).after = none) {span : Span} :
    ∀ (s : Scanner) (vs : List (Span × Verdict)) (p : Position),
      s.Stands (us ++ (span, .accept .regionQuote) :: vs) (.inside us.length count) p →
      (s.run d text).closeRegion.Records (us ++ (span, .reject .unterminatedRegion) ::
        (vs ++ placed p (Region.scan d count text).lexemes)) := by
  fun_induction Region.scan d count text with
  | case1 count =>
    intro s vs p h
    rw [Scanner.run, Scanner.closeRegion, h.mode, placed, List.append_nil]
    exact h.toRecords.demote .unterminatedRegion
  | case2 count c rest m remaining hClose => cases hAfter
  | case3 count c rest m remaining hClose region ih =>
    intro s vs p h
    obtain ⟨s', hRun, hStands⟩ := h.run_region (d := d) c rest
    rw [if_neg hClose, List.append_assoc, List.cons_append] at hStands
    have hRest := ih hAfter _ _ _ hStands
    rw [List.append_assoc] at hRest
    rw [hRun]
    exact hRest

/-- The first step of a run outside quoted regions. -/
theorem run_first (h : s.Stands es .outside p) (c : Char) (rest : List Char) :
    s.run d (c :: rest) =
      (s.stepOutside (Lexeme.next d s.previousKind (c :: rest)) (c :: rest)).run d
        ((c :: rest).drop (Lexeme.next d s.previousKind (c :: rest)).length) := by
  have hNext : s.next d (c :: rest) = Lexeme.next d s.previousKind (c :: rest) := by
    rw [Scanner.next, h.mode]
  rw [Scanner.run, hNext, Scanner.step, h.mode]

/-- **A run records the lexemes of the text.** -/
theorem run (before : Option TokenKind) (text : List Char) :
    ∀ (s : Scanner) (es : List (Span × Verdict)) (p : Position),
      s.Stands es .outside p → s.previousKind = before →
      (s.run d text).closeRegion.Records (es ++ placed p (lexemes d before text)) := by
  fun_induction lexemes d before text with
  | case1 before =>
    intro s es p h _
    rw [Scanner.run, Scanner.closeRegion, h.mode, placed, List.append_nil]
    exact h.toRecords
  | case2 before c rest m remaining hQuote region hOpen =>
    intro s es p h hBefore
    subst hBefore
    have hStep := h.stepOutside_quote (c :: rest) hQuote
    have hEntry : placed p [m.lexeme (c :: rest)] =
        [(Span.ofText p (m.lexeme (c :: rest)).text, .accept .regionQuote)] := by
      rw [← hQuote]
      rfl
    rw [hEntry] at hStep
    rw [h.run_first]
    exact run_open hOpen _ _ _ hStep
  | case3 before c rest m remaining hQuote region after hClosed ih =>
    intro s es p h hBefore
    subst hBefore
    obtain ⟨s', hRun, hStands, hKind⟩ :=
      run_closed hClosed _ _ _ (h.stepOutside_quote (c :: rest) hQuote)
    have hRest := ih _ _ _ hStands hKind
    rw [List.append_assoc, List.append_assoc, ← placed_append] at hRest
    rw [h.run_first, hRun]
    exact hRest
  | case4 before c rest m remaining hPlain ih =>
    intro s es p h hBefore
    subst hBefore
    have hStep := h.stepOutside (c :: rest) hPlain
    have hKind : (s.stepOutside m (c :: rest)).previousKind = some m.kind := by
      rw [hStep.previousKind, placed, placed, List.getLast?_concat]
      rfl
    have hRest := ih _ _ _ hStep hKind
    rw [List.append_assoc] at hRest
    rw [h.run_first]
    exact hRest

end Stands

/-! ### The dots -/

namespace Records

variable {before : Option TokenKind}

/-- The tokens around a place say the same as the entries around it. -/
theorem joins {x : Lexeme} {xs : List Lexeme} (h : s.Records (us ++ placed p (x :: xs)))
    (hBefore : us.getLast?.any (·.2.kind.isNamePart) = before.any (·.isNamePart)) :
    s.joins us.length = (before.any (·.isNamePart) && xs.head?.any (·.kind.isNamePart)) := by
  have hAfter : s.tokens[us.length + 1]?.any (·.kind.isNamePart) =
      xs.head?.any (·.kind.isNamePart) := by
    rw [h.token, List.getElem?_append_right (Nat.le_add_right _ 1),
      Nat.add_sub_cancel_left]
    cases xs <;> rfl
  rw [Scanner.joins, hAfter, ← hBefore]
  cases hLast : us.getLast? with
  | none =>
    rw [List.getLast?_eq_none_iff.1 hLast]
    rfl
  | some w =>
    obtain ⟨ws, rfl⟩ := List.getLast?_eq_some_iff.1 hLast
    have hPrevious : s.tokens[(ws ++ [w]).length - 1]? = some (TokenStream.token w) := by
      rw [h.token, List.length_append, List.length_singleton, Nat.add_sub_cancel, List.append_assoc,
        List.getElem?_append_right (Nat.le_refl _), Nat.sub_self]
      rfl
    have hPos : decide (0 < (ws ++ [w]).length) = true := by simp
    rw [hPrevious, hPos]
    rfl

/-- A dot is settled by its neighbours.  It was accepted until then, since an error
is no dot. -/
theorem settleDot {x : Lexeme} {xs : List Lexeme} (h : s.Records (us ++ placed p (x :: xs)))
    (hBefore : us.getLast?.any (·.2.kind.isNamePart) = before.any (·.isNamePart)) :
    (s.settleDot us.length).Records (us ++ placed p
      (x.settled (before.any (·.isNamePart) && xs.head?.any (·.kind.isNamePart)) :: xs)) := by
  have hDot : s.tokens[us.length]?.any (·.kind = .dot) = true ↔ x.kind = .dot := by
    rw [h.token, List.getElem?_append_right (Nat.le_refl _), Nat.sub_self]
    exact decide_eq_true_iff
  rw [Scanner.settleDot, h.joins hBefore, Lexeme.settled]
  by_cases hStray : x.kind = .dot ∧
      (before.any (·.isNamePart) && xs.head?.any (·.kind.isNamePart)) = false
  · have hVerdict : x.verdict = .accept .dot := (Verdict.kind_eq_iff (by decide)).1 hStray.1
    rw [if_pos ⟨hDot.2 hStray.1, hStray.2⟩, if_pos hStray]
    rw [placed, hVerdict] at h
    exact h.demote .strayDot
  · rw [if_neg fun hToken => hStray ⟨hDot.1 hToken.1, hToken.2⟩, if_neg hStray]
    exact h

/-- The dots are settled from the first to the last: in front stand the entries that
are settled, of which only the last one is asked for. -/
theorem settleFrom (xs : List Lexeme) :
    ∀ (s : Scanner) (us : List (Span × Verdict)) (p : Position) (before : Option TokenKind),
      s.Records (us ++ placed p xs) →
      us.getLast?.any (·.2.kind.isNamePart) = before.any (·.isNamePart) →
      ((List.range' us.length xs.length).foldl Scanner.settleDot s).Records
        (us ++ placed p (SqlTemplate.settleDots before xs)) := by
  induction xs with
  | nil =>
    intro s us p before h _
    exact h
  | cons x xs ih =>
    intro s us p before h hBefore
    have hRecords := h.settleDot hBefore
    rw [placed, List.append_cons] at hRecords
    have hRest := ih _ _ _ (some x.kind) hRecords
      (by rw [List.getLast?_concat]; exact x.settled_isNamePart _)
    rw [List.length_append, List.length_singleton] at hRest
    rw [SqlTemplate.settleDots, List.length_cons, List.range'_succ, List.foldl_cons, placed,
      List.append_cons]
    exact hRest

theorem settleDots {xs : List Lexeme} (h : s.Records (placed p xs)) :
    s.settleDots.Records (placed p (SqlTemplate.settleDots none xs)) := by
  have hSize : s.tokens.size = xs.length := by
    rw [h.size, length_placed]
  rw [Scanner.settleDots, hSize, List.range_eq_range']
  exact settleFrom xs s [] p none h rfl

end Records

/-! ### The stream -/

/-- Entries in the order of the text need no sorting, but the diagnostics do. -/
theorem Records.stream {xs : List Lexeme} (h : s.Records (placed .start xs))
    (hTexts : ∀ x ∈ xs, x.text ≠ []) : s.stream = .ofLexemes xs := by
  have hStarts : ((placed .start xs).filterMap TokenStream.diagnostic?).Pairwise
      (·.span.start < ·.span.start) := by
    refine (pairwise_placed hTexts .start).filterMap _ fun a b hab e he f hf => ?_
    rw [TokenStream.span_of_diagnostic? he, TokenStream.span_of_diagnostic? hf]
    exact hab
  rw [Scanner.stream, h.tokens, Diagnostic.sortByStart_eq h.diagnostics hStarts]
  rfl

theorem stands_start : Stands .start [] .outside .start :=
  ⟨⟨rfl, List.Perm.refl _⟩, rfl, rfl⟩

/-- At the end of a text the scanner has recorded its lexemes, with every dot
settled. -/
theorem records_ofText (d : Dialect) (source : List Char) :
    (ofText d source).Records (placed .start (settledLexemes d source)) :=
  (stands_start.run none source _ _ _ rfl).settleDots

end Scanner

/-- **The stream of a text is the stream of its lexemes.** -/
theorem scan_eq (d : Dialect) (source : List Char) :
    d.scan source =
      ⟨tokensAt .start (settledLexemes d source), diagnosticsAt .start (settledLexemes d source)⟩ :=
  (Scanner.records_ofText d source).stream (text_ne_nil_of_mem_settledLexemes d source)

/-- A stray dot, a region that is never closed and a second placeholder in it are found
in the opposite order. -/
example :
    let d : Dialect := ⟨[], [], fun _ => false, [], [], []⟩
    let source := ". '\x7b\x7b1\x7d\x7d\x7b\x7b2\x7d\x7d".toList
    (Scanner.ofText d source).diagnostics.toList.map (·.span.start) = [8, 2, 0] ∧
      (d.scan source).diagnostics.map (·.span.start) = [0, 2, 8] := by
  decide +kernel

theorem tokens_scan (d : Dialect) (source : List Char) :
    (d.scan source).tokens = tokensAt .start (settledLexemes d source) := by
  rw [scan_eq]

theorem diagnostics_scan (d : Dialect) (source : List Char) :
    (d.scan source).diagnostics = diagnosticsAt .start (settledLexemes d source) := by
  rw [scan_eq]

end SqlTemplate
