import SqlTemplate.Proofs.Diagnosis
import SqlTemplate.Proofs.NestedComments
import SqlTemplate.Proofs.Recovery
import SqlTemplate.Proofs.RegionBody

/-!
# What faults say about their texts

The fault of a diagnostic is chosen where the text is read, in many places, and a dot is found to
be stray only afterwards.  `Fault.Describes` says for every fault which texts it may stand for:
what the text looks like, or that nothing follows it.

* `Match.Describes`, `Recogniser.Describes`: this of one step, where what follows is the text
  that the step leaves.
* `Lexeme.Form.describes` and `Region.next_describes`: it holds of the steps outside and inside
  quoted regions.
* `ForallWith`: a property of every lexeme together with the text after it, which is how a step
  sees the source (`forallWith_lexemes`).

The main statement is `scan_diagnostics_describe`.
-/

namespace SqlTemplate

open Verdict (accept reject)

/-- A letter and a closed quoted run that holds something else than digits. -/
def Literal.IsMalformed (letter : Char) (quotes : List Char) (isDigit : Char → Bool)
    (text : List Char) : Prop :=
  ∃ c quote body, text = c :: quote :: (body ++ [quote]) ∧ c.toLower = letter ∧ quote ∈ quotes ∧
    Quoted.Body quote false body ∧ ∃ a ∈ body, isDigit a = false

/-- What the fault says about its text; `last` says that nothing follows the text. -/
def Fault.Describes (d : Dialect) (last : Prop) (text : List Char) : Fault → Prop
  | unterminatedString => ['{', '{'] <+: text ∨ last
  | unterminatedQuotedIdentifier => last
  | unterminatedDollarString => last
  | unterminatedBlockComment => last
  | malformedBits =>
    Literal.IsMalformed 'b' (if d.on .doubleQuotedBits then ['\'', '"'] else ['\''])
      Literal.isBinaryDigit text
  | malformedHex => Literal.IsMalformed 'x' ['\''] Literal.isHexDigit text
  | missingExpression => ['{', '{'] <+: text ∧ (['}', '}'] <:+ text ∨ last)
  | nestedPlaceholder => ['{', '{'] <+: text ∧ (['}', '}'] <:+ text ∨ last)
  | expectedPlaceholderClose => ['{', '{'] <+: text ∧ (['}', '}'] <:+ text ∨ last)
  | unterminatedPlaceholder => last
  | unmatchedPlaceholderClose => text = ['}', '}']
  | unexpectedRegionText => Text.StartsPlain text ∧ ¬['{', '{'] <+: text
  | secondPlaceholder => Placeholder.IsWhole d text
  | unterminatedRegion => text = ['\'']
  | strayDot => text = ['.']
  | unexpectedCharacter => text.length = 1

variable {d : Dialect} {text : List Char}

theorem Fault.Describes.mono {fault : Fault} {last last' : Prop} (hLast : last → last')
    (h : fault.Describes d last text) : fault.Describes d last' text := by
  cases fault with
  | unterminatedString => exact h.imp_right hLast
  | missingExpression | nestedPlaceholder | expectedPlaceholderClose =>
    exact ⟨h.1, h.2.imp_right hLast⟩
  | unterminatedQuotedIdentifier | unterminatedDollarString | unterminatedBlockComment
  | unterminatedPlaceholder => exact hLast h
  | _ => exact h

/-! ### Single steps -/

/-- If the match is rejected, its fault describes the text that it takes. -/
def Match.Describes (d : Dialect) (m : Match) (text : List Char) : Prop :=
  ∀ fault, m.verdict = .reject fault →
    fault.Describes d (text.drop m.length = []) (text.take m.length)

/-- All that is rejected is described by its fault. -/
def Recogniser.Describes (d : Dialect) (r : Recogniser) : Prop :=
  ∀ text m, r text = some m → m.Describes d text

namespace Match

theorem describes_accept (kind : TokenKind) (n : Nat) (text : List Char) :
    (accept kind n).Describes d text := by
  intro fault h
  cases h

theorem describes_reject {fault : Fault} {n : Nat}
    (h : fault.Describes d (text.drop n = []) (text.take n)) :
    (reject fault n).Describes d text := by
  intro found hFound
  cases hFound
  exact h

/-- A string that is rejected with all of the text. -/
theorem describes_string (text : List Char) :
    (reject .unterminatedString text.length).Describes d text :=
  describes_reject (Or.inr List.drop_length)

end Match

namespace Recogniser

/-- Where nothing is rejected, there is nothing to describe. -/
theorem Yields.describes {verdicts : List Verdict} {r : Recogniser} (h : Yields verdicts r)
    (hAccept : ∀ v ∈ verdicts, v.kind ≠ .error) : r.Describes d := by
  intro text m hm fault hFault
  have hKind := hAccept m.verdict (h text m hm).2
  rw [hFault] at hKind
  exact absurd rfl hKind

theorem firstOf_describes {forms : List Recogniser} (h : ∀ r ∈ forms, r.Describes d) :
    (firstOf forms).Describes d := by
  intro text m hm
  obtain ⟨r, hMem, hr⟩ := List.exists_of_findSome?_eq_some hm
  exact h r hMem text m hr

end Recogniser

/-! ### Placeholders -/

/-- What is cut off behind an occurrence ends with it. -/
theorem Text.suffix_take_of_indexOf? {pattern : List Char} {n : Nat}
    (h : indexOf? pattern text = some n) : pattern <:+ text.take (n + pattern.length) := by
  obtain ⟨⟨after, hAfter⟩, -⟩ := occurs_of_indexOf? h
  rw [List.take_add, ← hAfter, List.take_left]
  exact List.suffix_append _ _

theorem Brackets.suffix_take_of_close? {b : Brackets} {n : Nat} (h : b.close? 0 text = some n) :
    b.close <:+ text.take n := by
  obtain ⟨items, after, m, -, rfl, hLeave, rfl⟩ := exists_items_of_close? h
  cases hLeave
  have hLength : items.length + 2 + 0 = (items ++ b.close).length := by simp [close]
  rw [hLength, ← List.append_assoc, List.take_left]
  exact List.suffix_append _ _

namespace Placeholder

/-- A rejected placeholder ends with a close, or it is all of the text. -/
theorem recover_ends (text : List Char) (start : Nat) (fault unclosed : Fault) :
    (∃ n, recover text start fault unclosed = .reject fault n ∧ ['}', '}'] <:+ text.take n) ∨
      recover text start fault unclosed = .reject unclosed text.length := by
  unfold recover
  split
  · next n hn =>
    refine Or.inl ⟨_, rfl, ?_⟩
    rw [Nat.add_assoc, List.take_add]
    exact (Text.suffix_take_of_indexOf? hn).trans (List.suffix_append _ _)
  · exact Or.inr rfl

theorem recoverNested_ends (text : List Char) (start : Nat) :
    ∃ n, recoverNested text start = .reject .nestedPlaceholder n ∧
      (['}', '}'] <:+ text.take n ∨ text.drop n = []) := by
  unfold recoverNested
  split
  · next n hn =>
    refine ⟨_, rfl, Or.inl ?_⟩
    rw [List.take_add]
    exact (Brackets.suffix_take_of_close? hn).trans (List.suffix_append _ _)
  · exact ⟨_, rfl, Or.inr List.drop_length⟩

/-- What becomes of a text that starts with an opener. -/
theorem scan_cases (d : Dialect) (text : List Char) :
    (∃ start, scan d text = recoverNested text start) ∨
      (∃ start found, (found = .missingExpression ∨ found = .unterminatedString) ∧
        scan d text = recover text start found found) ∨
      (∃ start, scan d text =
        recover text start .expectedPlaceholderClose .unterminatedPlaceholder) ∨
      ∃ n, scan d text = .accept .placeholder n := by
  rw [scan_eq]
  split
  · exact Or.inl ⟨_, rfl⟩
  · split
    · next found hFound => exact Or.inr (Or.inl ⟨_, found, expression_fault hFound, rfl⟩)
    · split
      · exact Or.inr (Or.inr (Or.inr ⟨_, rfl⟩))
      · exact Or.inr (Or.inr (Or.inl ⟨_, rfl⟩))

/-- **A rejected placeholder is described by its fault.** -/
theorem scan_describes (h : startsOpen text = true) : (scan d text).Describes d text := by
  intro fault hFault
  have hOpen : ['{', '{'] <+: text.take (scan d text).length := by
    obtain ⟨after, hAfter⟩ := startsOpen_iff.1 h
    rw [List.prefix_take_iff]
    exact ⟨⟨after, hAfter.symm⟩, two_le_scan d h⟩
  rcases scan_cases d text with ⟨start, hScan⟩ | ⟨start, found, hFound, hScan⟩ |
    ⟨start, hScan⟩ | ⟨n, hScan⟩
  · obtain ⟨n, hn, hEnds⟩ := recoverNested_ends text start
    rw [hScan, hn] at hFault hOpen ⊢
    cases hFault
    exact ⟨hOpen, hEnds⟩
  · rcases recover_ends text start found found with ⟨n, hn, hClose⟩ | hAll
    · rw [hScan, hn] at hFault hOpen ⊢
      cases hFault
      rcases hFound with rfl | rfl
      · exact ⟨hOpen, Or.inl hClose⟩
      · exact Or.inl hOpen
    · rw [hScan, hAll] at hFault hOpen ⊢
      cases hFault
      rcases hFound with rfl | rfl
      · exact ⟨hOpen, Or.inr List.drop_length⟩
      · exact Or.inl hOpen
  · rcases recover_ends text start .expectedPlaceholderClose .unterminatedPlaceholder with
      ⟨n, hn, hClose⟩ | hAll
    · rw [hScan, hn] at hFault hOpen ⊢
      cases hFault
      exact ⟨hOpen, Or.inl hClose⟩
    · rw [hScan, hAll] at hFault ⊢
      cases hFault
      exact List.drop_length
  · rw [hScan] at hFault
    cases hFault

theorem match?_describes (d : Dialect) : (match? d).Describes d := by
  intro text m h
  rw [match?, Option.ite_none_right_eq_some, Option.some.injEq] at h
  obtain ⟨hOpen, rfl⟩ := h
  exact scan_describes hOpen

theorem unmatchedClose?_describes (d : Dialect) : unmatchedClose?.Describes d := by
  intro text m h
  rw [unmatchedClose?, Option.ite_none_right_eq_some, Option.some.injEq] at h
  obtain ⟨hClose, rfl⟩ := h
  obtain ⟨after, rfl⟩ := startsClose_iff.1 hClose
  exact Match.describes_reject rfl

end Placeholder

/-! ### Literals, strings and comments -/

namespace Literal

/-- A closed run in which a character is no digit. -/
theorem isMalformed_of_length? {letter c quote : Char} {quotes : List Char}
    {isDigit : Char → Bool} {rest : List Char} {n : Nat} (hLetter : c.toLower = letter)
    (hQuote : quote ∈ quotes) (h : Quoted.length? quote false (quote :: rest) = some n)
    (hDigits : ((c :: quote :: rest).take n |>.drop 2).all isDigit ≠ true) :
    IsMalformed letter quotes isDigit ((c :: quote :: rest).take (n + 1)) := by
  obtain ⟨m, hm, rfl⟩ := Option.map_eq_some_iff.1 h
  obtain ⟨-, body, after, hBody, hRest, -, rfl⟩ := Quoted.exists_body_of_closing? hm
  rw [List.tail_cons] at hRest
  subst hRest
  have hText : c :: quote :: (body ++ quote :: after) =
      c :: quote :: (body ++ [quote]) ++ after := by simp
  have hRun : body.length + 1 + 1 + 1 = (c :: quote :: (body ++ [quote])).length := by simp
  rw [hText, hRun, List.take_left]
  refine ⟨c, quote, body, rfl, hLetter, hQuote, hBody, ?_⟩
  rw [List.take_succ_cons, List.take_succ_cons, List.drop_succ_cons, List.drop_succ_cons,
    List.drop_zero, List.take_left, ne_eq, List.all_eq_true] at hDigits
  simpa using hDigits

theorem bits?_describes (d : Dialect) : (bits? d).Describes d := by
  intro text m h
  unfold bits? at h
  split at h
  · next c quote rest =>
    rw [Option.ite_none_right_eq_some, Option.some.injEq, Bool.and_eq_true, beq_iff_eq] at h
    obtain ⟨⟨hLetter, hQuote⟩, rfl⟩ := h
    have hMem : quote ∈ if d.on .doubleQuotedBits then ['\'', '"'] else ['\''] := by
      simp only [Bool.or_eq_true, Bool.and_eq_true, beq_iff_eq] at hQuote
      rcases hQuote with rfl | ⟨rfl, hOn⟩
      · split <;> exact List.mem_cons_self
      · rw [if_pos hOn]
        simp
    unfold bits
    split
    · exact Match.describes_string _
    · next n hn =>
      split
      · exact Match.describes_accept _ _ _
      · next hOff =>
        split
        · exact Match.describes_accept _ _ _
        · next hDigits =>
          rw [Bool.not_eq_true] at hOff
          rw [hOff, Bool.false_and] at hn
          exact Match.describes_reject (isMalformed_of_length? hLetter hMem hn hDigits)
  · cases h

theorem hex?_describes (d : Dialect) : hex?.Describes d := by
  intro text m h
  unfold hex? at h
  split at h
  · next c rest =>
    rw [Option.ite_none_right_eq_some, Option.some.injEq, beq_iff_eq] at h
    obtain ⟨hLetter, rfl⟩ := h
    unfold hex
    split
    · exact Match.describes_string _
    · next n hn =>
      split
      · exact Match.describes_accept _ _ _
      · next hDigits =>
        exact Match.describes_reject
          (isMalformed_of_length? hLetter List.mem_cons_self hn hDigits)
  · cases h

theorem introduced_describes (introducer : Nat) (escapes : Bool) (text : List Char) :
    (introduced introducer escapes text).Describes d text := by
  unfold introduced
  split
  · exact Match.describes_string _
  · exact Match.describes_accept _ _ _

theorem escape?_describes (d : Dialect) : escape?.Describes d := by
  intro text m h
  unfold escape? at h
  split at h
  · rw [Option.ite_none_right_eq_some, Option.some.injEq] at h
    obtain ⟨-, rfl⟩ := h
    exact introduced_describes _ _ _
  · cases h

theorem national?_describes (d : Dialect) : (national? d).Describes d := by
  intro text m h
  unfold national? at h
  split at h
  · rw [Option.ite_none_right_eq_some, Option.some.injEq] at h
    obtain ⟨-, rfl⟩ := h
    exact introduced_describes _ _ _
  · cases h

theorem charset?_describes (d : Dialect) : (charset? d).Describes d := by
  intro text m h
  unfold charset? at h
  split at h
  · rw [Option.ite_none_right_eq_some, Option.some.injEq] at h
    obtain ⟨-, rfl⟩ := h
    exact introduced_describes _ _ _
  · cases h

theorem dollar?_describes (d : Dialect) : (dollar? d).Describes d := by
  intro text m h
  unfold dollar? at h
  split at h
  · rw [Option.ite_none_right_eq_some, Option.map_eq_some_iff] at h
    obtain ⟨-, tag, -, rfl⟩ := h
    unfold dollar
    split
    · exact Match.describes_accept _ _ _
    · exact Match.describes_reject List.drop_length
  · cases h

theorem digits?_describes {kind : TokenKind} {isDigit : Char → Bool} {rest : List Char} {m : Match}
    (h : digits? kind isDigit rest = some m) : m.Describes d text := by
  intro fault hFault
  rw [(digits?_yields h).2] at hFault
  cases hFault

theorem radix?_describes (d : Dialect) : radix?.Describes d := by
  intro text m h
  unfold radix? at h
  split at h
  · split at h
    · exact digits?_describes h
    · split at h
      · exact digits?_describes h
      · cases h
  · cases h

theorem match?_describes (d : Dialect) : (match? d).Describes d := by
  apply Recogniser.firstOf_describes
  simp only [forms, List.forall_mem_cons, List.not_mem_nil, false_imp_iff, implies_true, and_true]
  exact ⟨radix?_describes d, bits?_describes d, hex?_describes d, escape?_describes d,
    national?_describes d, charset?_describes d, dollar?_describes d⟩

end Literal

theorem Comment.block?_describes (d : Dialect) : block?.Describes d := by
  intro text m h
  rw [block?, Option.ite_none_right_eq_some] at h
  obtain ⟨-, h⟩ := h
  split at h
  · cases h
    exact Match.describes_accept _ _ _
  · cases h
    exact Match.describes_reject List.drop_length

theorem Symbol.string?_describes (d : Dialect) : (string? d).Describes d := by
  intro text m h
  unfold string? at h
  split at h
  · cases h
  · rw [Option.ite_none_right_eq_some, Option.some.injEq] at h
    obtain ⟨-, rfl⟩ := h
    unfold delimited
    split
    · exact Match.describes_accept _ _ _
    · exact Match.describes_string _

theorem Symbol.quotedIdentifier?_describes (d : Dialect) : (quotedIdentifier? d).Describes d := by
  intro text m h
  unfold quotedIdentifier? at h
  split at h
  · cases h
  · rw [Option.ite_none_right_eq_some, Option.some.injEq] at h
    obtain ⟨-, rfl⟩ := h
    unfold delimited
    split
    · exact Match.describes_accept _ _ _
    · exact Match.describes_reject List.drop_length

theorem Region.apostrophe?_describes (d : Dialect) : (apostrophe? d).Describes d := by
  intro text m h
  unfold apostrophe? at h
  split at h
  · next rest =>
    split at h
    · cases h
      exact Match.describes_accept _ _ _
    · cases h
      exact Match.describes_string ('\'' :: rest)
    · cases h
      exact Match.describes_accept _ _ _
  · cases h

/-! ### Steps outside and inside quoted regions -/

/-- **Outside quoted regions every fault describes its text.** -/
theorem Lexeme.Form.describes (d : Dialect) (before : Option TokenKind) (f : Form) :
    (f.recogniser d before).Describes d := by
  cases f with
  | placeholder => exact Placeholder.match?_describes d
  | unmatchedClose => exact Placeholder.unmatchedClose?_describes d
  | apostrophe => exact Region.apostrophe?_describes d
  | literal => exact Literal.match?_describes d
  | blockComment => exact Comment.block?_describes d
  | doubleQuoted => exact Symbol.string?_describes d
  | quotedIdentifier => exact Symbol.quotedIdentifier?_describes d
  | whitespace | lineComment | number | specialVariable | punctuation | operator | word =>
    exact (recogniser_yields d before _).describes (by decide)

theorem Lexeme.next_describes (d : Dialect) (before : Option TokenKind) (c : Char)
    (rest : List Char) : (next d before (c :: rest)).Describes d (c :: rest) := by
  rcases next_cases d before (c :: rest) with ⟨f, hf, -⟩ | hNext
  · exact f.describes d before _ _ hf
  · rw [hNext]
    exact Match.describes_reject rfl

/-- **Inside quoted regions too.** -/
theorem Region.next_describes (d : Dialect) (count : Nat) (c : Char) (rest : List Char) :
    (next d count (c :: rest)).Describes d (c :: rest) := by
  rcases next_cases d count c rest with
    ⟨_, hNext⟩ | ⟨hOpen, hNext⟩ | ⟨_, _, hNext⟩ | ⟨hSpace, hOpen, hQuote, hNext⟩
  · rw [hNext]
    exact Match.describes_accept _ _ _
  · rw [hNext, judged]
    split
    · next hSecond =>
      rw [Bool.and_eq_true, beq_iff_eq] at hSecond
      have hAccepted := (Verdict.kind_eq_iff (by decide)).1 hSecond.1
      exact Match.describes_reject (isWhole_of_scan hOpen hAccepted)
    · exact Placeholder.scan_describes hOpen
  · rw [hNext]
    exact Match.describes_accept _ _ _
  · have hPos := next_pos d count c rest
    rw [hNext, Match.reject_length] at hPos
    rw [hNext]
    refine Match.describes_reject ⟨fun a ha => ?_, fun hBraces => ?_⟩
    · rw [List.head?_take, if_neg (Nat.ne_of_gt hPos), List.head?_cons, Option.some.injEq] at ha
      rw [← ha, hSpace]
    · obtain ⟨after, hAfter⟩ := hBraces.trans (List.take_prefix _ _)
      rw [Placeholder.startsOpen_iff.2 ⟨after, hAfter.symm⟩] at hOpen
      cases hOpen

/-- The only lexeme that is accepted as a dot is a dot. -/
theorem Lexeme.text_of_accept_dot {before : Option TokenKind}
    (h : (next d before text).verdict = accept .dot) :
    ((next d before text).lexeme text).text = ['.'] := by
  rcases next_cases d before text with ⟨f, hf, hVerdict⟩ | hNext
  · rw [h] at hVerdict
    obtain rfl : f = .punctuation := by
      cases f <;> first | rfl | exact absurd hVerdict (by decide)
    rw [Form.recogniser] at hf
    generalize next d before text = m at hf h
    unfold Symbol.punctuation? at hf
    split at hf
    · cases hf
    · next c rest =>
      obtain ⟨kind, hKind, rfl⟩ := Option.map_eq_some_iff.1 hf
      cases h
      have hDot : c = '.' := by grind [Symbol.punctuationKind?]
      rw [hDot]
      rfl
  · rw [hNext] at h
    cases h

/-! ### All lexemes of a source -/

/-- The property holds of every lexeme together with the text after it; `after` follows the
last one. -/
def ForallWith (P : Lexeme → List Char → Prop) (after : List Char) : List Lexeme → Prop
  | [] => True
  | x :: xs => P x (textOf xs ++ after) ∧ ForallWith P after xs

section

variable {P : Lexeme → List Char → Prop} {after : List Char}

theorem forallWith_append {xs ys : List Lexeme} :
    ForallWith P after (xs ++ ys) ↔
      ForallWith P (textOf ys ++ after) xs ∧ ForallWith P after ys := by
  induction xs with
  | nil => simp [ForallWith]
  | cons x xs ih =>
    rw [List.cons_append, ForallWith, ForallWith, ih, textOf_append, List.append_assoc, and_assoc]

theorem forallWith_region
    (hStep : ∀ count c rest, P ((Region.next d count (c :: rest)).lexeme (c :: rest))
      ((c :: rest).drop (Region.next d count (c :: rest)).length)) (count : Nat)
    (text : List Char) :
    ForallWith P ((Region.scan d count text).after.getD []) (Region.scan d count text).lexemes := by
  fun_induction Region.scan d count text with
  | case1 => exact trivial
  | case2 count c rest m remaining hClose => exact ⟨hStep count c rest, trivial⟩
  | case3 count c rest m remaining hClose region ih =>
    have hText : textOf region.lexemes ++ region.after.getD [] = remaining :=
      Region.text_lexemes d _ remaining
    refine ⟨?_, ih⟩
    rw [hText]
    exact hStep count c rest

/-- **What every step gives, all lexemes have**, each with what the step leaves. -/
theorem forallWith_lexemes
    (hStep : ∀ before c rest, P ((Lexeme.next d before (c :: rest)).lexeme (c :: rest))
      ((c :: rest).drop (Lexeme.next d before (c :: rest)).length))
    (hRegion : ∀ count c rest, P ((Region.next d count (c :: rest)).lexeme (c :: rest))
      ((c :: rest).drop (Region.next d count (c :: rest)).length))
    (hOpen : ∀ rest, P Lexeme.openQuote rest) (before : Option TokenKind) (text : List Char) :
    ForallWith P [] (lexemes d before text) := by
  fun_induction lexemes d before text with
  | case1 => exact trivial
  | case2 before c rest m remaining hQuote region hNone =>
    obtain ⟨_, hText, _, hNext⟩ := Lexeme.next_eq_regionQuote hQuote
    have hInside := forallWith_region hRegion 0 remaining
    rw [show (Region.scan d 0 remaining).after = none from hNone] at hInside
    refine ⟨?_, hInside⟩
    simp only [m, hNext, hText]
    exact hOpen _
  | case3 before c rest m remaining hQuote region after hClosed ih =>
    have hInside := forallWith_region hRegion 0 remaining
    have hText := Region.text_lexemes d 0 remaining
    rw [show (Region.scan d 0 remaining).after = some after from hClosed, Option.getD_some]
      at hInside hText
    have hAfter : textOf (lexemes d (some .regionQuote) after) = after := text_lexemes d _ after
    refine ⟨?_, forallWith_append.2 ⟨?_, ih⟩⟩
    · have hRest : textOf (region.lexemes ++ lexemes d (some .regionQuote) after) = remaining := by
        rw [textOf_append, hAfter]
        exact hText
      rw [hRest, List.append_nil]
      exact hStep before c rest
    · rw [hAfter, List.append_nil]
      exact hInside
  | case4 before c rest m remaining hPlain ih =>
    have hText : textOf (lexemes d (some m.kind) remaining) = remaining :=
      text_lexemes d _ remaining
    refine ⟨?_, ih⟩
    rw [hText, List.append_nil]
    exact hStep before c rest

theorem forallWith_settleDots
    (hDot : ∀ text rest, P ⟨text, accept .dot⟩ rest → P ⟨text, reject .strayDot⟩ rest)
    {xs : List Lexeme} (h : ForallWith P after xs) (before : Option TokenKind) :
    ForallWith P after (settleDots before xs) := by
  induction xs generalizing before with
  | nil => exact trivial
  | cons x xs ih =>
    rw [settleDots, ForallWith, textOf_congr (text_settleDots _ xs)]
    refine ⟨?_, ih h.2 _⟩
    rcases x.settled_cases (before.any (·.isNamePart) && xs.head?.any (·.kind.isNamePart)) with
      hSelf | ⟨text, rfl, -, hStray⟩
    · rw [hSelf]
      exact h.1
    · rw [hStray]
      exact hDot text _ h.1

end

/-- A rejected lexeme is described by its fault, and one that is accepted as a dot is a dot. -/
def Lexeme.Described (d : Dialect) (x : Lexeme) (rest : List Char) : Prop :=
  (∀ fault, x.verdict = reject fault → fault.Describes d (rest = []) x.text) ∧
    (x.verdict = accept .dot → x.text = ['.'])

/-- **Every fault describes the text of its lexeme.** -/
theorem described_settledLexemes (d : Dialect) (source : List Char) :
    ForallWith (Lexeme.Described d) [] (settledLexemes d source) := by
  apply forallWith_settleDots
  · rintro text rest ⟨-, hText⟩
    refine ⟨fun fault hFault => ?_, fun hDot => by cases hDot⟩
    cases hFault
    exact hText rfl
  · apply forallWith_lexemes
    · exact fun before c rest => ⟨Lexeme.next_describes d before c rest, Lexeme.text_of_accept_dot⟩
    · intro count c rest
      refine ⟨Region.next_describes d count c rest, fun hDot => ?_⟩
      have hVerdict := Region.next_verdict d count c rest
      rw [show (Region.next d count (c :: rest)).verdict = accept .dot from hDot] at hVerdict
      exact absurd hVerdict (by decide)
    · intro rest
      refine ⟨fun fault hFault => ?_, fun hDot => by cases hDot⟩
      cases hFault
      rfl

/-- **Diagnostics describe their text.**  The fault of every diagnostic says what stands at its
span, where a text that nothing follows ends with the source and is the text of the last
token. -/
theorem scan_diagnostics_describe (d : Dialect) (source : List Char) (e : Diagnostic)
    (he : e ∈ (d.scan source).diagnostics) :
    e.fault.Describes d
      (e.span.stop = Text.byteLength source ∧
        (d.scan source).tokens.getLast? = some ⟨.error, e.span⟩)
      (Text.slice e.span.start e.span.stop source) := by
  rw [scan_eq] at he
  obtain ⟨us, x, vs, hLexemes, hVerdict, hSpan⟩ := mem_diagnosticsAt he
  have hText : Text.slice e.span.start e.span.stop source = x.text := by
    rw [hSpan]
    exact text_of_settledLexemes hLexemes
  have hSource : textOf us ++ (x.text ++ textOf vs) = source := by
    rw [← textOf_settledLexemes d source, hLexemes, textOf_append, textOf_cons]
  have hDescribed := described_settledLexemes d source
  rw [hLexemes, forallWith_append] at hDescribed
  rw [hText]
  refine (hDescribed.2.1.1 e.fault hVerdict).mono fun hLast => ?_
  rw [List.append_nil] at hLast
  refine ⟨?_, ?_⟩
  · rw [hSpan, ← hSource, hLast, List.append_nil, Text.byteLength_append, Span.ofText,
      start_advance_offset]
  · -- lexemes take characters, so that none follows where no text does
    have hNil : vs = [] := by
      rw [List.eq_nil_iff_forall_not_mem]
      intro y hy
      have hMem : y ∈ settledLexemes d source := by simp [hLexemes, hy]
      refine text_ne_nil_of_mem_settledLexemes d source y hMem ?_
      exact List.flatMap_eq_nil_iff.1 hLast y hy
    have hKind : x.kind = .error := by rw [Lexeme.kind, hVerdict, Verdict.kind]
    rw [scan_eq, hLexemes, hNil, tokensAt_append, tokensAt_cons, tokensAt_nil, hSpan, hKind,
      List.getLast?_concat]

/-- A string that is never closed, behind a dot that joins nothing. -/
theorem scan_diagnostics_describe_string :
    (⟨.unterminatedString, ⟨2, 6, 1, 3⟩⟩ : Diagnostic) ∈
        (Preset.standard.rules.scan ". 'abc".toList).diagnostics ∧
      ((Preset.standard.rules.scan ". 'abc".toList).tokens.getLast? =
        some ⟨.error, ⟨2, 6, 1, 3⟩⟩) := by
  have hMem : (⟨.unterminatedString, ⟨2, 6, 1, 3⟩⟩ : Diagnostic) ∈
      (Preset.standard.rules.scan ". 'abc".toList).diagnostics := by decide +kernel
  refine ⟨hMem, ?_⟩
  have hDescribes := scan_diagnostics_describe Preset.standard.rules ". 'abc".toList _ hMem
  rcases hDescribes with hBraces | hLast
  · exact absurd hBraces (by decide +kernel)
  · exact hLast.2

end SqlTemplate
