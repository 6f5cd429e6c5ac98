import Mathlib.Data.List.Nodup
import SqlTemplate.Proofs.Triggers

/-!
# Bits and bytes

Between the quotes of `b'...'` there are binary digits or bytes, as the dialect says.  Two
dialects that differ in this alone, and have no escapes, read every text into the same
pieces:

* `Lexeme.next_asBytes`: where the first finds binary digits, or finds fault with them, the
  second finds bytes up to the same quote.  The rest of the reading does not notice
  (`lexemes_relabel`).
* `isQuotedBits_token_iff`: which tokens those are can be seen from the first scan alone.
* `scan_bitsAsBytes`: the second scan is the first with these tokens turned into bytes and
  their faults gone.
-/

namespace SqlTemplate

open Verdict (accept reject)

variable {d d' : Dialect} {text : List Char}

/-! ### Quoted bits -/

namespace Literal

theorem startsBits_take {n : Nat} (h : 2 ≤ n) (text : List Char) :
    startsBits (text.take n) = startsBits text := by
  obtain ⟨n, rfl⟩ := Nat.exists_eq_add_of_le' h
  match text with
  | [] => rfl
  | [_] => rfl
  | _ :: _ :: _ => rfl

theorem startsBits_of_take {n : Nat} (h : startsBits (text.take n) = true) :
    startsBits text = true := by
  by_cases hn : 2 ≤ n
  · rwa [startsBits_take hn] at h
  · match n, text with
    | 0, _ => cases h
    | 1, [] => cases h
    | 1, _ :: _ => cases h
    | n + 2, _ => omega

/-- Of the literals only quoted bits start with a `b` and a quote. -/
theorem match?_of_startsBits (h : startsBits text = true) : match? d text = bits? d text := by
  match text with
  | [] => cases h
  | [_] => cases h
  | c :: quote :: rest =>
    simp only [startsBits, Bool.and_eq_true, beq_iff_eq] at h
    have hFirst : c ≠ '0' ∧ c ≠ '_' ∧ c ≠ '$' := by
      refine ⟨?_, ?_, ?_⟩ <;>
        · rintro rfl
          exact absurd h.1 (by decide)
    have hRadix : radix? (c :: quote :: rest) = none := by simp [radix?, hFirst]
    have hHex : hex? (c :: quote :: rest) = none := by
      unfold hex?
      split <;> simp_all
    have hEscape : escape? (c :: quote :: rest) = none := by
      unfold escape?
      split <;> simp_all
    have hNational : national? d (c :: quote :: rest) = none := by
      unfold national?
      split <;> simp_all
    have hCharset : charset? d (c :: quote :: rest) = none := by simp [charset?, hFirst]
    have hDollar : dollar? d (c :: quote :: rest) = none := by simp [dollar?, hFirst]
    simp only [match?, Recogniser.firstOf, forms, List.findSome?_cons, hRadix, hHex, hEscape,
      hNational, hCharset, hDollar]
    cases bits? d (c :: quote :: rest) <;> rfl

/-- Only the digits of quoted bits are found faulty as bits. -/
theorem startsBits_of_malformed {m : Match} (h : match? d text = some m)
    (hVerdict : m.verdict = reject .malformedBits) : startsBits text = true := by
  obtain ⟨r, hr, hFound⟩ := List.exists_of_findSome?_eq_some h
  simp only [forms, List.mem_cons, List.not_mem_nil, or_false] at hr
  rcases hr with rfl | rfl | rfl | rfl | rfl | rfl | rfl
  · unfold radix? at hFound
    split at hFound <;> grind [digits?, Match.accept]
  · rw [← Bool.not_eq_false]
    intro hStart
    rw [bits?_eq_none hStart] at hFound
    cases hFound
  · unfold hex? at hFound
    split at hFound <;> grind [hex, Match.accept, Match.reject]
  · unfold escape? at hFound
    split at hFound <;> grind [introduced, Match.accept, Match.reject]
  · unfold national? at hFound
    split at hFound <;> grind [introduced, Match.accept, Match.reject]
  · unfold charset? at hFound
    split at hFound <;> grind [introduced, Match.accept, Match.reject]
  · unfold dollar? at hFound
    split at hFound <;> grind [Option.map_eq_some_iff, dollar, Match.accept, Match.reject]

theorem eq_bits_of_bits? {m : Match} (h : bits? d text = some m) :
    ∃ quote, m = bits d quote text := by
  unfold bits? at h
  split at h
  · next c quote rest =>
    rw [Option.ite_none_right_eq_some, Option.some.injEq] at h
    exact ⟨quote, h.2.symm⟩
  · cases h

theorem exists_bitsVerdict {quote : Char} {n : Nat} (hOff : d.on .bitsAsBytes = false)
    (hRun : Quoted.length? quote false text.tail = some n) :
    ∃ v ∈ bitsVerdicts, bits d quote text = ⟨n + 1, v⟩ := by
  rw [bits, hOff, Bool.false_and, hRun]
  by_cases hDigits : ((text.take n).drop 2).all isBinaryDigit = true
  · exact ⟨accept .bits, by decide, if_pos hDigits⟩
  · exact ⟨reject .malformedBits, by decide, if_neg hDigits⟩

theorem two_le_bits (h : startsBits text = true) (d : Dialect) (quote : Char) :
    2 ≤ (bits d quote text).length := by
  match text with
  | [] => cases h
  | [_] => cases h
  | c :: c' :: rest =>
    unfold bits
    split
    · simp
    · next n hRun =>
      have hPos := Quoted.length?_pos hRun
      split
      · exact Nat.le_succ_of_le hPos
      · split <;> exact Nat.le_succ_of_le hPos

end Literal

namespace Lexeme

/-- Closed bits between quotes, well-formed or not. -/
def IsQuotedBits (x : Lexeme) : Prop :=
  Literal.startsBits x.text = true ∧ x.verdict ∈ Literal.bitsVerdicts

instance (x : Lexeme) : Decidable x.IsQuotedBits :=
  inferInstanceAs (Decidable (Literal.startsBits x.text = true ∧ x.verdict ∈ Literal.bitsVerdicts))

/-- The lexeme with bytes in the place of quoted bits. -/
def asBytes (x : Lexeme) : Lexeme := if x.IsQuotedBits then ⟨x.text, accept .bytes⟩ else x

theorem asBytes_text (x : Lexeme) : x.asBytes.text = x.text := by
  unfold asBytes
  split <;> rfl

theorem asBytes_relabels : Relabels asBytes where
  text := asBytes_text
  eq_self x hx := if_neg fun h => hx h.2
  kind x hx := by
    unfold asBytes
    split
    · simp [kind, Verdict.kind]
    · exact kind_mem_of_bitsVerdicts hx

theorem match?_of_bitsVerdicts {before : Option TokenKind}
    (h : (next d before text).verdict ∈ Literal.bitsVerdicts) :
    Literal.match? d text = some (next d before text) := by
  rcases next_cases d before text with ⟨f, hFound, hVerdict⟩ | hNext
  · have hFacts : ∀ v ∈ Literal.bitsVerdicts, v ∈ f.verdicts → f = .literal := by
      cases f <;> decide
    rw [hFacts _ h hVerdict] at hFound
    exact hFound
  · rw [hNext] at h
    exact absurd h (by decide)

/-- Where no quoted bits are found there are none. -/
theorem not_isQuotedBits {before : Option TokenKind} (h : Literal.bits? d text = none) :
    ¬((next d before text).lexeme text).IsQuotedBits := by
  rintro ⟨hStart, hVerdict⟩
  have hLiteral := match?_of_bitsVerdicts hVerdict
  rw [Literal.match?_of_startsBits (Literal.startsBits_of_take hStart), h] at hLiteral
  cases hLiteral

/-- Faulty bits are quoted bits. -/
theorem isQuotedBits_of_malformed {before : Option TokenKind}
    (h : (next d before text).verdict = reject .malformedBits) :
    ((next d before text).lexeme text).IsQuotedBits := by
  have hBits : (next d before text).verdict ∈ Literal.bitsVerdicts := by
    simp [h, Literal.bitsVerdicts]
  have hLiteral := match?_of_bitsVerdicts hBits
  have hStart := Literal.startsBits_of_malformed hLiteral h
  rw [Literal.match?_of_startsBits hStart] at hLiteral
  obtain ⟨quote, hNext⟩ := Literal.eq_bits_of_bits? hLiteral
  refine ⟨?_, hBits⟩
  rw [Match.lexeme, hNext, Literal.startsBits_take (Literal.two_le_bits hStart d quote)]
  exact hStart

end Lexeme

/-- **One step.**  Without escapes the two readings of quoted bits end at the same quote. -/
theorem Lexeme.next_asBytes (h : d.AgreeAt text d') (hOff : d.on .bitsAsBytes = false)
    (hOn : d'.on .bitsAsBytes = true) (hEscapes : d'.on .backslashEscapes = false)
    (before : Option TokenKind) :
    (next d' before text).length = (next d before text).length ∧
      (next d' before text).lexeme text = ((next d before text).lexeme text).asBytes := by
  rcases Literal.bits?_agree_cases h with ⟨hLeft, hRight⟩ | ⟨quote, hStart, hLeft, hRight⟩
  -- no bits here: the step is the same, and what it finds, `0b01` among others, stays
  · rw [← next_agree h (hLeft.trans hRight.symm) before, asBytes, if_neg (not_isQuotedBits hLeft)]
    exact ⟨rfl, rfl⟩
  · rw [← Literal.match?_of_startsBits hStart] at hLeft hRight
    rw [next_of_literal hLeft, next_of_literal hRight]
    -- both readings search the closing quote without escapes
    cases hRun : Quoted.length? quote false text.tail with
    | none =>
      rw [Literal.bits, Literal.bits, hOff, hOn, hEscapes, Bool.false_and, Bool.and_false, hRun]
      have hSelf : (⟨text.take text.length, reject .unterminatedString⟩ : Lexeme).asBytes = _ :=
        asBytes_relabels.eq_self _ (by simp [Literal.bitsVerdicts])
      exact ⟨rfl, hSelf.symm⟩
    | some n =>
      obtain ⟨v, hv, hBits⟩ := Literal.exists_bitsVerdict hOff hRun
      have hBytes : Literal.bits d' quote text = .accept .bytes (n + 1) := by
        rw [Literal.bits, hOn, hEscapes, Bool.and_false, hRun]
        rfl
      have hQuoted : (⟨text.take (n + 1), v⟩ : Lexeme).IsQuotedBits := by
        refine ⟨?_, hv⟩
        rw [Literal.startsBits_take (Nat.le_succ_of_le (Quoted.length?_pos hRun))]
        exact hStart
      rw [hBits, hBytes]
      exact ⟨rfl, (if_pos hQuoted).symm⟩

/-! ### Tokens and diagnostics -/

/-- A change of lexemes that keeps their texts, seen in the tokens. -/
theorem tokensAt_map {f : Lexeme → Lexeme} {g : Token → Token} (hText : ∀ x, (f x).text = x.text)
    (p : Position) (xs : List Lexeme)
    (hToken : ∀ us x vs, xs = us ++ x :: vs →
      g ⟨x.kind, Span.ofText (p.advance (textOf us)) x.text⟩ =
        ⟨(f x).kind, Span.ofText (p.advance (textOf us)) x.text⟩) :
    tokensAt p (xs.map f) = (tokensAt p xs).map g := by
  induction xs generalizing p with
  | nil => rfl
  | cons x xs ih =>
    have hRest : tokensAt (p.advance x.text) (xs.map f) =
        (tokensAt (p.advance x.text) xs).map g := by
      refine ih _ fun us y vs hSplit => ?_
      have hCons := hToken (x :: us) y vs (by rw [hSplit, List.cons_append])
      rwa [textOf_cons, Position.advance_append] at hCons
    rw [List.map_cons, tokensAt_cons, hText, hRest, tokensAt_cons, List.map_cons]
    exact congrArg (· :: _) (hToken [] x xs rfl).symm

/-- The faults that are left are those of other lexemes. -/
theorem diagnosticsAt_asBytes (p : Position) {xs : List Lexeme}
    (h : ∀ x ∈ xs, x.verdict = reject .malformedBits → x.IsQuotedBits) :
    diagnosticsAt p (xs.map Lexeme.asBytes) =
      (diagnosticsAt p xs).filter (·.fault ≠ .malformedBits) := by
  induction xs generalizing p with
  | nil => rfl
  | cons x xs ih =>
    have hRest := ih (p.advance x.text) fun y hy => h y (List.mem_cons_of_mem x hy)
    rw [List.map_cons, diagnosticsAt_cons, diagnosticsAt_cons, List.filter_append,
      Lexeme.asBytes_text, hRest]
    congr 1
    cases hx : x.verdict with
    | accept kind =>
      have hAccept : ∃ kind, x.asBytes.verdict = accept kind := by
        unfold Lexeme.asBytes
        split
        · exact ⟨_, rfl⟩
        · exact ⟨kind, hx⟩
      obtain ⟨_, hVerdict⟩ := hAccept
      rw [hVerdict]
      rfl
    | reject fault =>
      by_cases hFault : fault = .malformedBits
      · subst hFault
        rw [Lexeme.asBytes, if_pos (h x List.mem_cons_self hx)]
        rfl
      · rw [Lexeme.asBytes_relabels.eq_self x (by simp [hx, Literal.bitsVerdicts, hFault]), hx]
        simp [TokenStream.diagnostic?, hFault]

/-- The token is closed bits between quotes, well-formed or not. -/
def TokenStream.IsQuotedBits (s : TokenStream) (source : List Char) (t : Token) : Prop :=
  Literal.startsBits (t.text source) = true ∧
    (t.kind = .bits ∨ t.kind = .error ∧ ⟨.malformedBits, t.span⟩ ∈ s.diagnostics)

instance (s : TokenStream) (source : List Char) (t : Token) : Decidable (s.IsQuotedBits source t) :=
  inferInstanceAs (Decidable (Literal.startsBits (t.text source) = true ∧
    (t.kind = .bits ∨ t.kind = .error ∧ ⟨.malformedBits, t.span⟩ ∈ s.diagnostics)))

/-- No two diagnostics stand in one place. -/
theorem nodup_diagnosticsAt {xs : List Lexeme} (hExplained : ∀ x ∈ xs, x.Explained)
    (hText : ∀ x ∈ xs, x.text ≠ []) (p : Position) :
    ((diagnosticsAt p xs).map (·.span)).Nodup := by
  rw [span_diagnosticsAt hExplained]
  exact (nodup_spans hText p).sublist (List.filter_sublist.map _)

/-- A rejected lexeme has its own fault and no other. -/
theorem mem_diagnostics_iff {source : List Char} {us vs : List Lexeme} {x : Lexeme} {own : Fault}
    (h : settledLexemes d source = us ++ x :: vs) (hx : x.verdict = reject own) (fault : Fault) :
    ⟨fault, Span.ofText (Position.start.advance (textOf us)) x.text⟩ ∈ (d.scan source).diagnostics ↔
      fault = own := by
  have hOwn : ⟨own, Span.ofText (Position.start.advance (textOf us)) x.text⟩ ∈
      (d.scan source).diagnostics := by
    rw [scan_eq, h, diagnosticsAt_append, diagnosticsAt_cons, hx]
    exact List.mem_append_right _ (List.mem_append_left _ List.mem_cons_self)
  constructor
  · intro hFault
    have hNodup := nodup_diagnosticsAt (explained_of_mem_settledLexemes d source)
      (text_ne_nil_of_mem_settledLexemes d source) .start
    rw [← diagnostics_scan] at hNodup
    exact congrArg Diagnostic.fault (List.inj_on_of_nodup_map hNodup hFault hOwn rfl)
  · rintro rfl
    exact hOwn

/-- Quoted bits among the tokens are quoted bits among the lexemes. -/
theorem isQuotedBits_token_iff {source : List Char} {us vs : List Lexeme} {x : Lexeme}
    (h : settledLexemes d source = us ++ x :: vs) :
    (d.scan source).IsQuotedBits source
        ⟨x.kind, Span.ofText (Position.start.advance (textOf us)) x.text⟩ ↔ x.IsQuotedBits := by
  have hExplained : x.Explained := explained_of_mem_settledLexemes d source x (by simp [h])
  have hVerdict : (x.kind = .bits ∨ x.kind = .error ∧
      ⟨.malformedBits, Span.ofText (Position.start.advance (textOf us)) x.text⟩ ∈
        (d.scan source).diagnostics) ↔ x.verdict ∈ Literal.bitsVerdicts := by
    cases hx : x.verdict with
    | accept kind =>
      have hError : x.kind ≠ .error := by
        rw [Ne, hExplained.kind_eq_error_iff, hx]
        simp
      simp only [hError, false_and, or_false]
      simp [Lexeme.kind, hx, Verdict.kind, Literal.bitsVerdicts]
    | reject fault =>
      rw [mem_diagnostics_iff h hx]
      simp [Lexeme.kind, hx, Verdict.kind, Literal.bitsVerdicts, eq_comm]
  rw [TokenStream.IsQuotedBits, text_of_settledLexemes h, hVerdict, Lexeme.IsQuotedBits]

/-- **Reading bits as bytes changes nothing else.**  Take two dialects without escapes that
differ only in that quoted bits are bytes in the second.  The second finds the tokens of
the first in the same places; quoted bits, well-formed or not, are bytes, and all other
tokens keep their kinds.  Its diagnostics are those of the first without the ones about
malformed bits. -/
theorem scan_bitsAsBytes (d d' : Dialect) (h : d.Agree (· ≠ .bitsAsBytes) d')
    (hOff : d.on .bitsAsBytes = false) (hOn : d'.on .bitsAsBytes = true)
    (hEscapes : d.on .backslashEscapes = false) (source : List Char) :
    (d'.scan source).tokens = (d.scan source).tokens.map (fun t =>
        if (d.scan source).IsQuotedBits source t then ⟨.bytes, t.span⟩ else t) ∧
      (d'.scan source).diagnostics =
        (d.scan source).diagnostics.filter (·.fault ≠ .malformedBits) := by
  have hAt : d.AgreeAt source d' := h.mono fun _ hs => hs.1
  have hEscapes' : d'.on .backslashEscapes = false := by
    rw [← h.on .backslashEscapes (by decide), hEscapes]
  have hLexemes : settledLexemes d' source = (settledLexemes d source).map Lexeme.asBytes :=
    settledLexemes_relabel Lexeme.asBytes_relabels hAt fun text before hText =>
      Lexeme.next_asBytes (hAt.suffix hText) hOff hOn hEscapes' before
  constructor
  · rw [tokens_scan d', tokens_scan d, hLexemes]
    refine tokensAt_map Lexeme.asBytes_text .start _ fun us x vs hSplit => ?_
    simp only [isQuotedBits_token_iff hSplit, Lexeme.asBytes]
    split <;> rfl
  · rw [diagnostics_scan d', diagnostics_scan d, hLexemes]
    refine diagnosticsAt_asBytes .start (forall_mem_settledLexemes ?_ ?_ ?_ ?_ source)
    · exact fun before c rest => Lexeme.isQuotedBits_of_malformed
    · intro count c rest hFault
      have hFacts : reject .malformedBits ∉ Region.verdicts := by decide
      exact absurd (hFault ▸ Region.next_verdict d count c rest) hFacts
    · exact fun hFault => by cases hFault
    · exact fun text _ hFault => by cases hFault

/-- Bits, faulty bits, bits without quotes and bits that are never closed. -/
theorem scan_bitsAsBytes_standard :
    Preset.standard.rules.on .bitsAsBytes = false ∧
      Preset.standard.rules.on .backslashEscapes = false ∧
      (((Edit.set .bitsAsBytes true).apply Preset.standard.rules).scan
          "b'01'.B'2\\'.5 0b1 b'".toList).tokens =
        (Preset.standard.rules.scan "b'01'.B'2\\'.5 0b1 b'".toList).tokens.map (fun t =>
          if (Preset.standard.rules.scan "b'01'.B'2\\'.5 0b1 b'".toList).IsQuotedBits
              "b'01'.B'2\\'.5 0b1 b'".toList t then ⟨.bytes, t.span⟩ else t) ∧
      (((Edit.set .bitsAsBytes true).apply Preset.standard.rules).scan
          "b'01'.B'2\\'.5 0b1 b'".toList).diagnostics =
        (Preset.standard.rules.scan "b'01'.B'2\\'.5 0b1 b'".toList).diagnostics.filter
          (·.fault ≠ .malformedBits) :=
  ⟨rfl, rfl, scan_bitsAsBytes Preset.standard.rules _ (Dialect.agree_set _ _ _) rfl rfl rfl _⟩

/-- With escapes the two readings of bits may end at different quotes. -/
example : (((Edit.set .bitsAsBytes true).apply Preset.mysql.rules).scan "b'\\' '".toList).kinds =
      [.bytes] ∧
    (((Edit.set .bitsAsBytes false).apply Preset.mysql.rules).scan "b'\\' '".toList).kinds =
      [.error, .whitespace, .error] := by
  decide +kernel

end SqlTemplate
