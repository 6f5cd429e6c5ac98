import SqlTemplate.Proofs.Lexemes

/-!
# Tokens of lexemes

The tokens and diagnostics of a text come from its lexemes, each placed where the
text before it ends.  This file says what placing does, for lexemes that start at
any position:

* `tokensAt_append`, `diagnosticsAt_append`: laying lexemes end to end lays
  their tokens end to end.
* `tokensAt_eq_append_iff`: a cut through the tokens is a cut through the
  lexemes, so that what is shown of lexemes can be read off the tokens.
* `text_tokensAt`: the text of each token is the text of its lexeme.
-/

namespace SqlTemplate

/-- The tokens of these lexemes, the first of which stands at `p`. -/
def tokensAt (p : Position) (xs : List Lexeme) : List Token :=
  (placed p xs).map TokenStream.token

/-- The diagnostics of these lexemes, the first of which stands at `p`. -/
def diagnosticsAt (p : Position) (xs : List Lexeme) : List Diagnostic :=
  (placed p xs).filterMap TokenStream.diagnostic?

/-- The text of these lexemes, laid end to end. -/
def textOf (xs : List Lexeme) : List Char := xs.flatMap Lexeme.text

@[simp] theorem textOf_nil : textOf [] = [] := rfl

@[simp] theorem textOf_cons (x : Lexeme) (xs : List Lexeme) :
    textOf (x :: xs) = x.text ++ textOf xs := rfl

@[simp] theorem textOf_append (xs ys : List Lexeme) :
    textOf (xs ++ ys) = textOf xs ++ textOf ys :=
  List.flatMap_append

theorem textOf_congr {xs ys : List Lexeme} (h : xs.map Lexeme.text = ys.map Lexeme.text) :
    textOf xs = textOf ys := by
  rw [textOf, List.flatMap_def, h, ← List.flatMap_def, textOf]

@[simp] theorem tokensAt_nil (p : Position) : tokensAt p [] = [] := rfl

@[simp] theorem tokensAt_cons (p : Position) (x : Lexeme) (xs : List Lexeme) :
    tokensAt p (x :: xs) = ⟨x.kind, Span.ofText p x.text⟩ :: tokensAt (p.advance x.text) xs := rfl

theorem placed_append (p : Position) (xs ys : List Lexeme) :
    placed p (xs ++ ys) = placed p xs ++ placed (p.advance (textOf xs)) ys := by
  induction xs generalizing p with
  | nil => rfl
  | cons x xs ih =>
    rw [List.cons_append, placed, ih, placed, List.cons_append, textOf_cons,
      Position.advance_append]

theorem length_placed (p : Position) (xs : List Lexeme) : (placed p xs).length = xs.length := by
  induction xs generalizing p with
  | nil => rfl
  | cons x xs ih => rw [placed, List.length_cons, ih, List.length_cons]

/-- Nothing is placed before the first position. -/
theorem le_start_of_mem_placed {p : Position} {xs : List Lexeme} {entry : Span × Verdict}
    (h : entry ∈ placed p xs) : p.offset ≤ entry.1.start := by
  induction xs generalizing p with
  | nil => cases h
  | cons x xs ih =>
    rcases List.mem_cons.1 h with rfl | hRest
    · exact Nat.le_refl _
    · have hBehind := ih hRest
      rw [Position.advance_offset] at hBehind
      exact Nat.le_trans (Nat.le_add_right _ _) hBehind

/-- Lexemes that take characters start one behind the other. -/
theorem pairwise_placed {xs : List Lexeme} (h : ∀ x ∈ xs, x.text ≠ []) (p : Position) :
    (placed p xs).Pairwise (·.1.start < ·.1.start) := by
  induction xs generalizing p with
  | nil => exact List.Pairwise.nil
  | cons x xs ih =>
    refine List.pairwise_cons.2 ⟨fun entry hEntry => ?_, ih (fun y hy => h y (by simp [hy])) _⟩
    have hBehind := le_start_of_mem_placed hEntry
    have hBytes := Nat.pos_of_ne_zero (mt Text.byteLength_eq_zero_iff.1 (h x List.mem_cons_self))
    rw [Position.advance_offset] at hBehind
    exact Nat.lt_of_lt_of_le (Nat.lt_add_of_pos_right hBytes) hBehind

theorem TokenStream.span_of_diagnostic? {entry : Span × Verdict} {e : Diagnostic}
    (h : diagnostic? entry = some e) : e.span = entry.1 := by
  obtain ⟨span, verdict⟩ := entry
  cases verdict with
  | accept kind => cases h
  | reject fault =>
    cases h
    rfl

theorem tokensAt_append (p : Position) (xs ys : List Lexeme) :
    tokensAt p (xs ++ ys) = tokensAt p xs ++ tokensAt (p.advance (textOf xs)) ys := by
  rw [tokensAt, placed_append, List.map_append]
  rfl

@[simp] theorem diagnosticsAt_nil (p : Position) : diagnosticsAt p [] = [] := rfl

theorem diagnosticsAt_cons (p : Position) (x : Lexeme) (xs : List Lexeme) :
    diagnosticsAt p (x :: xs) =
      (TokenStream.diagnostic? (Span.ofText p x.text, x.verdict)).toList
        ++ diagnosticsAt (p.advance x.text) xs := by
  rw [diagnosticsAt, placed, List.filterMap_cons]
  cases TokenStream.diagnostic? (Span.ofText p x.text, x.verdict) with
  | none => rfl
  | some e => rfl

theorem diagnosticsAt_append (p : Position) (xs ys : List Lexeme) :
    diagnosticsAt p (xs ++ ys) =
      diagnosticsAt p xs ++ diagnosticsAt (p.advance (textOf xs)) ys := by
  rw [diagnosticsAt, placed_append, List.filterMap_append]
  rfl

/-- **A cut through the tokens is a cut through the lexemes.** -/
theorem tokensAt_eq_append_iff {p : Position} {xs : List Lexeme} {before after : List Token} :
    tokensAt p xs = before ++ after ↔
      ∃ us vs, xs = us ++ vs ∧ tokensAt p us = before ∧
        tokensAt (p.advance (textOf us)) vs = after := by
  constructor
  · intro h
    induction before generalizing p xs with
    | nil => exact ⟨[], xs, rfl, rfl, h⟩
    | cons t before ih =>
      cases xs with
      | nil => simp at h
      | cons x xs =>
        rw [tokensAt_cons, List.cons_append, List.cons.injEq] at h
        obtain ⟨us, vs, rfl, hBefore, hAfter⟩ := ih h.2
        refine ⟨x :: us, vs, rfl, ?_, ?_⟩
        · rw [tokensAt_cons, h.1, hBefore]
        · rw [textOf_cons, Position.advance_append, hAfter]
  · rintro ⟨us, vs, rfl, rfl, rfl⟩
    exact tokensAt_append p us vs

theorem tokensAt_eq_cons_iff {p : Position} {xs : List Lexeme} {t : Token} {after : List Token} :
    tokensAt p xs = t :: after ↔
      ∃ x vs, xs = x :: vs ∧ t = ⟨x.kind, Span.ofText p x.text⟩ ∧
        tokensAt (p.advance x.text) vs = after := by
  cases xs with
  | nil => simp
  | cons x xs =>
    rw [tokensAt_cons, List.cons.injEq]
    constructor
    · rintro ⟨hToken, hAfter⟩
      exact ⟨x, xs, rfl, hToken.symm, hAfter⟩
    · rintro ⟨y, ys, hEq, hToken, hAfter⟩
      cases hEq
      exact ⟨hToken.symm, hAfter⟩

/-- A token among others comes from a lexeme among others. -/
theorem mem_tokensAt {p : Position} {xs : List Lexeme} {t : Token} (h : t ∈ tokensAt p xs) :
    ∃ us x vs, xs = us ++ x :: vs ∧
      t = ⟨x.kind, Span.ofText (p.advance (textOf us)) x.text⟩ := by
  obtain ⟨before, after, hSplit⟩ := List.append_of_mem h
  obtain ⟨us, ws, rfl, _, hRest⟩ := tokensAt_eq_append_iff.1 hSplit
  obtain ⟨x, vs, rfl, hToken, _⟩ := tokensAt_eq_cons_iff.1 hRest
  exact ⟨us, x, vs, rfl, hToken⟩

@[simp] theorem kind_tokensAt (p : Position) (xs : List Lexeme) :
    (tokensAt p xs).map (·.kind) = xs.map Lexeme.kind := by
  induction xs generalizing p with
  | nil => rfl
  | cons x xs ih => rw [tokensAt_cons, List.map_cons, ih, List.map_cons]

theorem forall_kind_tokensAt {P : TokenKind → Prop} {p : Position} {xs : List Lexeme} :
    (∀ t ∈ tokensAt p xs, P t.kind) ↔ ∀ x ∈ xs, P x.kind := by
  rw [← List.forall_mem_map (f := fun t : Token => t.kind), kind_tokensAt, List.forall_mem_map]

theorem countP_kind_tokensAt (q : TokenKind → Prop) [DecidablePred q] (p : Position)
    (xs : List Lexeme) : (tokensAt p xs).countP (q ·.kind) = xs.countP (q ·.kind) := by
  have hMap := congrArg (List.countP (q ·)) (kind_tokensAt p xs)
  rw [List.countP_map, List.countP_map] at hMap
  exact hMap

/-- A diagnostic comes from a rejected lexeme. -/
theorem mem_diagnosticsAt {p : Position} {xs : List Lexeme} {e : Diagnostic}
    (h : e ∈ diagnosticsAt p xs) :
    ∃ us x vs, xs = us ++ x :: vs ∧ x.verdict = .reject e.fault ∧
      e.span = Span.ofText (p.advance (textOf us)) x.text := by
  induction xs generalizing p with
  | nil => simp at h
  | cons x xs ih =>
    rw [diagnosticsAt_cons] at h
    rcases List.mem_append.1 h with hHead | hRest
    · cases hVerdict : x.verdict with
      | accept kind =>
        rw [hVerdict] at hHead
        simp [TokenStream.diagnostic?] at hHead
      | reject fault =>
        rw [hVerdict] at hHead
        simp only [TokenStream.diagnostic?, Option.toList_some, List.mem_singleton] at hHead
        subst hHead
        exact ⟨[], x, xs, rfl, hVerdict, rfl⟩
    · obtain ⟨us, y, vs, rfl, hVerdict, hSpan⟩ := ih hRest
      refine ⟨x :: us, y, vs, rfl, hVerdict, ?_⟩
      rw [textOf_cons, Position.advance_append, hSpan]

theorem countP_diagnosticsAt (fault : Fault) (p : Position) (xs : List Lexeme) :
    (diagnosticsAt p xs).countP (·.fault = fault) = xs.countP (·.verdict = .reject fault) := by
  induction xs generalizing p with
  | nil => rfl
  | cons x xs ih =>
    rw [diagnosticsAt_cons, List.countP_append, ih, List.countP_cons]
    cases hVerdict : x.verdict with
    | accept kind => simp [TokenStream.diagnostic?]
    | reject found => simp [TokenStream.diagnostic?, List.countP_cons, Nat.add_comm]

/-! ### Texts and offsets -/

theorem start_advance_offset (text : List Char) :
    (Position.start.advance text).offset = Text.byteLength text := by
  rw [Position.advance_offset]
  exact Nat.zero_add _

/-- The text of a token is the text of its lexeme. -/
theorem text_ofText (kind : TokenKind) (before text after : List Char) :
    Token.text (before ++ (text ++ after)) ⟨kind, Span.ofText (Position.start.advance before) text⟩
      = text := by
  rw [Token.text, Span.ofText, start_advance_offset]
  exact Text.slice_append before text after

theorem text_tokensAt (before : List Char) (xs : List Lexeme) (after : List Char) :
    (tokensAt (Position.start.advance before) xs).map
        (Token.text (before ++ (textOf xs ++ after))) = xs.map Lexeme.text := by
  induction xs generalizing before with
  | nil => rfl
  | cons x xs ih =>
    have hRest := ih (before ++ x.text)
    rw [Position.advance_append, List.append_assoc] at hRest
    rw [tokensAt_cons, List.map_cons, textOf_cons, List.append_assoc, text_ofText, hRest,
      List.map_cons]

end SqlTemplate
