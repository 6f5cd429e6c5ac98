import SqlTemplate.Proofs.Coverage

/-!
# One diagnostic for each error

The scanner adds errors to its tokens and to its diagnostics at four places, and by
`scan_eq` what it has in the end comes from one list of lexemes: a token from each,
a diagnostic from each rejected one.  It could still add an error token without a
diagnostic, if it took a lexeme for an error that it accepts.
`explained_of_mem_settledLexemes` shows that it never does, for every step of
reading, for the opening quote of a region that is never closed and for dots, and
`scan_diagnostics_spans` says what follows for the stream.
-/

namespace SqlTemplate

/-- A lexeme is never accepted as an error: as an error it has a fault. -/
def Lexeme.Explained (x : Lexeme) : Prop := x.verdict ≠ .accept .error

theorem Lexeme.next_explained (d : Dialect) (before : Option TokenKind) (text : List Char) :
    ((Lexeme.next d before text).lexeme text).Explained := by
  intro hError
  have hError : (Lexeme.next d before text).verdict = .accept .error := hError
  rcases Lexeme.next_cases d before text with ⟨f, _, hVerdict⟩ | hNext
  · rw [hError] at hVerdict
    cases f <;> revert hVerdict <;> decide
  · rw [hNext] at hError
    simp at hError

theorem Region.next_explained (d : Dialect) (count : Nat) (c : Char) (rest : List Char) :
    ((Region.next d count (c :: rest)).lexeme (c :: rest)).Explained := by
  intro hError
  have hVerdict := Region.next_verdict d count c rest
  rw [show (Region.next d count (c :: rest)).verdict = .accept .error from hError] at hVerdict
  revert hVerdict
  decide

theorem explained_of_mem_settledLexemes (d : Dialect) (source : List Char) :
    ∀ x ∈ settledLexemes d source, x.Explained := by
  apply forall_mem_settledLexemes
  · exact fun before c rest => Lexeme.next_explained d before (c :: rest)
  · exact Region.next_explained d
  · exact fun hError => by cases hError
  · exact fun text _ hError => by cases hError

theorem Lexeme.Explained.kind_eq_error_iff {x : Lexeme} (h : x.Explained) :
    x.kind = .error ↔ ∃ fault, x.verdict = .reject fault := by
  obtain ⟨text, verdict⟩ := x
  cases verdict with
  | accept kind =>
    simp only [Lexeme.kind, Verdict.kind, reduceCtorEq, exists_false, iff_false]
    rintro rfl
    exact h rfl
  | reject fault => simp [Lexeme.kind, Verdict.kind]

/-- The diagnostics of explained lexemes stand where their error tokens do. -/
theorem span_diagnosticsAt {xs : List Lexeme} (h : ∀ x ∈ xs, x.Explained) (p : Position) :
    (diagnosticsAt p xs).map (·.span) =
      ((tokensAt p xs).filter (·.kind = .error)).map (·.span) := by
  induction xs generalizing p with
  | nil => rfl
  | cons x xs ih =>
    have hRest := ih (fun y hy => h y (List.mem_cons_of_mem x hy)) (p.advance x.text)
    have hKind := (h x List.mem_cons_self).kind_eq_error_iff
    rw [diagnosticsAt_cons, List.map_append, hRest, tokensAt_cons]
    cases hVerdict : x.verdict with
    | accept kind =>
      have hNot : x.kind ≠ .error := by
        rw [Ne, hKind, hVerdict]
        simp
      rw [List.filter_cons_of_neg (by simpa using hNot)]
      rfl
    | reject fault =>
      have hError : x.kind = .error := hKind.2 ⟨fault, hVerdict⟩
      rw [List.filter_cons_of_pos (by simpa using hError)]
      rfl

/-- The spans of the tokens of non-empty lexemes are all different. -/
theorem nodup_spans {xs : List Lexeme} (h : ∀ x ∈ xs, x.text ≠ []) (p : Position) :
    ((tokensAt p xs).map (·.span)).Nodup := by
  rw [tokensAt, List.map_map]
  refine (pairwise_placed h p).map _ fun a b hab hSpan => ?_
  have hSame : a.1 = b.1 := hSpan
  rw [hSame] at hab
  exact Nat.lt_irrefl _ hab

/-- **One diagnostic for each error token.**  The diagnostics of a text stand, in
order, exactly where its error tokens stand, and no two of them in one place. -/
theorem scan_diagnostics_spans (d : Dialect) (source : List Char) :
    (d.scan source).diagnostics.map (·.span) =
        ((d.scan source).tokens.filter (·.kind = .error)).map (·.span) ∧
      ((d.scan source).diagnostics.map (·.span)).Nodup ∧
      ((d.scan source).hasErrors = true ↔ ∃ t ∈ (d.scan source).tokens, t.kind = .error) := by
  have hSpans : (d.scan source).diagnostics.map (·.span) =
      ((d.scan source).tokens.filter (·.kind = .error)).map (·.span) := by
    rw [tokens_scan, diagnostics_scan]
    exact span_diagnosticsAt (explained_of_mem_settledLexemes d source) .start
  refine ⟨hSpans, ?_, ?_⟩
  · have hNodup := nodup_spans (text_ne_nil_of_mem_settledLexemes d source) .start
    rw [hSpans, tokens_scan]
    exact hNodup.sublist (List.filter_sublist.map _)
  · have hEmpty : (d.scan source).diagnostics = [] ↔
        (d.scan source).tokens.filter (·.kind = .error) = [] := by
      rw [← List.map_eq_nil_iff, hSpans, List.map_eq_nil_iff]
    rw [TokenStream.hasErrors, Bool.not_eq_true', ← Bool.not_eq_true, List.isEmpty_iff, hEmpty,
      List.filter_eq_nil_iff]
    simp

end SqlTemplate
