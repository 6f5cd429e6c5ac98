import Mathlib.Data.List.DropRight
import SqlTemplate.Dialect.Preset
import SqlTemplate.Proofs.Coverage

/-!
# Lines and columns

Positions are counted one character at a time.  What they count in the end can be
read off the text before them: the line breaks, and the characters after the last
one (`Position.start_advance_line`, `Position.start_advance_column`).

Since every lexeme is placed where the text before it ends, the span of each token
and of each diagnostic tells the line and the column of its first character in the
source (`scan_locates`), whatever was read before it.
-/

namespace SqlTemplate

namespace Position

theorem step_line (p : Position) (c : Char) :
    (p.step c).line = p.line + if c = '\n' then 1 else 0 := by
  unfold step
  split <;> rfl

theorem step_column (p : Position) (c : Char) :
    (p.step c).column = if c = '\n' then 1 else p.column + 1 := by
  unfold step
  split <;> rfl

theorem advance_concat (p : Position) (text : List Char) (c : Char) :
    p.advance (text ++ [c]) = (p.advance text).step c := by
  rw [advance_append, advance_cons, advance_nil]

/-- The line after a text counts its line breaks. -/
theorem start_advance_line (text : List Char) :
    (start.advance text).line = 1 + text.count '\n' := by
  induction text using List.reverseRecOn with
  | nil => rfl
  | append_singleton text c ih =>
    rw [advance_concat, step_line, ih, List.count_append, List.count_singleton, Nat.add_assoc]
    simp only [beq_iff_eq]

/-- The column after a text counts its characters after the last line break, and
all of them if there is none. -/
theorem start_advance_column (text : List Char) :
    (start.advance text).column = 1 + (text.rtakeWhile (· ≠ '\n')).length := by
  induction text using List.reverseRecOn with
  | nil => rfl
  | append_singleton text c ih =>
    rw [advance_concat, step_column, List.rtakeWhile_concat]
    by_cases hBreak : c = '\n'
    · simp [hBreak]
    · simp [hBreak, ih, Nat.add_assoc]

end Position

/-- The span starts between two characters of the source, and its line and column
are those of this place. -/
structure Span.Locates (source : List Char) (s : Span) : Prop where
  start : Text.byteLength (Text.takeBytes s.start source) = s.start
  line : s.line = 1 + (Text.takeBytes s.start source).count '\n'
  column : s.column = 1 + ((Text.takeBytes s.start source).rtakeWhile (· ≠ '\n')).length

/-- A text that is placed where the text before it ends is located there. -/
theorem Span.locates_ofText (before text after : List Char) :
    (Span.ofText (Position.start.advance before) text).Locates (before ++ (text ++ after)) := by
  have hBefore : Text.takeBytes (Span.ofText (Position.start.advance before) text).start
      (before ++ (text ++ after)) = before := by
    rw [Span.ofText, start_advance_offset, Text.takeBytes_append]
  refine ⟨?_, ?_, ?_⟩
  · rw [hBefore, Span.ofText, start_advance_offset]
  · rw [hBefore]
    exact Position.start_advance_line before
  · rw [hBefore]
    exact Position.start_advance_column before

/-- A lexeme among the lexemes of a source is located in it. -/
theorem locates_of_settledLexemes {d : Dialect} {source : List Char} {us vs : List Lexeme}
    {x : Lexeme} (h : settledLexemes d source = us ++ x :: vs) :
    (Span.ofText (Position.start.advance (textOf us)) x.text).Locates source := by
  rw [← textOf_settledLexemes d source, h, textOf_append, textOf_cons]
  exact Span.locates_ofText _ _ _

/-- **Lines and columns are right.**  The span of every token and of every
diagnostic has as its line one more than the line breaks before its start, and as
its column one more than the characters between the last of them, or the start of
the source, and its start. -/
theorem scan_locates (d : Dialect) (source : List Char) :
    (∀ t ∈ (d.scan source).tokens, t.span.Locates source) ∧
      ∀ e ∈ (d.scan source).diagnostics, e.span.Locates source := by
  rw [scan_eq]
  refine ⟨?_, ?_⟩
  · intro t ht
    obtain ⟨us, x, vs, hLexemes, rfl⟩ := mem_tokensAt ht
    exact locates_of_settledLexemes hLexemes
  · intro e he
    obtain ⟨us, x, vs, hLexemes, _, hSpan⟩ := mem_diagnosticsAt he
    rw [hSpan]
    exact locates_of_settledLexemes hLexemes

/-- A dot that is rejected at the end, after a string over two lines with a character
of two bytes. -/
theorem scan_locates_strayDot :
    (⟨.strayDot, ⟨7, 8, 2, 4⟩⟩ : Diagnostic) ∈
        (Preset.standard.rules.scan "'é\nb' .".toList).diagnostics ∧
      (⟨7, 8, 2, 4⟩ : Span).Locates "'é\nb' .".toList := by
  have hMem : (⟨.strayDot, ⟨7, 8, 2, 4⟩⟩ : Diagnostic) ∈
      (Preset.standard.rules.scan "'é\nb' .".toList).diagnostics := by
    decide +kernel
  exact ⟨hMem, (scan_locates Preset.standard.rules "'é\nb' .".toList).2 _ hMem⟩

end SqlTemplate
