import SqlTemplate.Proofs.Placeholders

/-!
# What stands before a semicolon

A recogniser is sealed if it does not look past a semicolon: where it ends
before the semicolon or finds nothing, it does the same in the text that is cut
after the semicolon.  All forms of lexemes are sealed, with one exception that
stands in the definition: the quote of a region is told from the quote of a
string by looking for a placeholder, as far ahead as it takes.

* `Recogniser.Sealed.of_head`, `Recogniser.Sealed.of_guard`,
  `Recogniser.Sealed.of_pair`: the three ways in which a recogniser decides to go
  ahead.
* `Placeholder.scan_sealed`: malformed placeholders are sealed too, although
  reading goes on after their closing braces, wherever these are.
* `Lexeme.next_sealed`: one step of reading is sealed.
-/

namespace SqlTemplate

open Verdict (accept reject)

namespace Recogniser

/-- What is found before this semicolon, or not found, does not depend on the
text `t` after it. -/
def SealedAt (r : Recogniser) (u t : List Char) : Prop :=
  (r (u ++ ';' :: t) = none → r (u ++ [';']) = none) ∧
    ∀ m, r (u ++ ';' :: t) = some m → m.length ≤ u.length → m.verdict ≠ accept .regionQuote →
      r (u ++ [';']) = some m

/-- The recogniser does not look past a semicolon. -/
def Sealed (r : Recogniser) : Prop := ∀ u t, SealedAt r u t

namespace SealedAt

variable {r : Recogniser} {u t : List Char}

theorem of_none (h : r (u ++ ';' :: t) = none) (hCut : r (u ++ [';']) = none) :
    SealedAt r u t := by
  refine ⟨fun _ => hCut, fun m hm => ?_⟩
  rw [h] at hm
  cases hm

theorem of_some {m : Match} (h : r (u ++ ';' :: t) = some m)
    (hCut : m.length ≤ u.length → m.verdict ≠ accept .regionQuote → r (u ++ [';']) = some m) :
    SealedAt r u t := by
  refine ⟨fun hNone => ?_, fun found hFound => ?_⟩
  · rw [h] at hNone
    cases hNone
  · rw [h] at hFound
    cases hFound
    exact hCut

theorem of_eq (h : r (u ++ [';']) = r (u ++ ';' :: t)) : SealedAt r u t := by
  unfold SealedAt
  rw [h]
  exact ⟨fun hNone => hNone, fun m hm _ _ => hm⟩

/-- A recogniser that goes ahead on a condition which holds on both texts or on
neither. -/
theorem of_guard {guard : Bool} {found foundCut : Match}
    (h : r (u ++ ';' :: t) = if guard then some found else none)
    (hCut : r (u ++ [';']) = if guard then some foundCut else none)
    (hFound : guard = true → found.length ≤ u.length → foundCut = found) : SealedAt r u t := by
  cases guard with
  | false => exact of_none h hCut
  | true =>
    refine of_some h fun hLength _ => ?_
    rw [hCut, if_pos rfl, hFound rfl hLength]

end SealedAt

namespace Sealed

theorem firstOf {forms : List Recogniser} (h : ∀ r ∈ forms, Sealed r) :
    Sealed (Recogniser.firstOf forms) := by
  induction forms with
  | nil => exact fun u t => .of_none rfl rfl
  | cons r forms ih =>
    intro u t
    have hHead := h r List.mem_cons_self u t
    have hRest := ih (fun s hs => h s (List.mem_cons_of_mem r hs)) u t
    simp only [SealedAt, Recogniser.firstOf, List.findSome?_cons] at hRest ⊢
    cases hr : r (u ++ ';' :: t) with
    | none =>
      rw [hHead.1 hr]
      exact hRest
    | some found =>
      refine ⟨fun hNone => (by cases hNone), fun m hm hLength hVerdict => ?_⟩
      cases hm
      rw [hHead.2 found hr hLength hVerdict]

/-- A recogniser that goes ahead by the first character. -/
theorem of_head {r : Recogniser} (p : Char → Bool) (found : Char → List Char → Match)
    (hr : ∀ c rest, r (c :: rest) = if p c then some (found c rest) else none)
    (hPos : Recogniser.Progress r)
    (hFound : ∀ c v t, (found c (v ++ ';' :: t)).length ≤ v.length + 1 →
      found c (v ++ [';']) = found c (v ++ ';' :: t)) : Sealed r := by
  intro u t
  cases u with
  | nil =>
    refine .of_guard (hr ';' t) (hr ';' []) fun hp hLength => ?_
    have hZero := hPos _ _ ((hr ';' t).trans (if_pos hp))
    rw [List.length_nil] at hLength
    omega
  | cons c v => exact .of_guard (hr c (v ++ ';' :: t)) (hr c (v ++ [';'])) fun _ => hFound c v t

/-- A recogniser that goes ahead by looking at the text before the semicolon. -/
theorem of_guard (guard : List Char → Bool) (found : List Char → Match)
    (hGuard : ∀ u t, guard (u ++ [';']) = guard (u ++ ';' :: t))
    (hFound : ∀ u t, guard (u ++ ';' :: t) = true → (found (u ++ ';' :: t)).length ≤ u.length →
      found (u ++ [';']) = found (u ++ ';' :: t)) :
    Sealed fun text => if guard text then some (found text) else none := by
  intro u t
  refine .of_guard rfl ?_ (hFound u t)
  rw [hGuard u t]

/-- A recogniser that goes ahead by the first two characters, neither of which
is a semicolon. -/
theorem of_pair {r : Recogniser} (p : Char → Char → Bool)
    (found : Char → Char → List Char → Match) (hOne : ∀ c, r [c] = none)
    (hr : ∀ a b rest, r (a :: b :: rest) = if p a b then some (found a b rest) else none)
    (hFirst : ∀ b, p ';' b = false) (hSecond : ∀ a, p a ';' = false)
    (hFound : ∀ a b v t, (found a b (v ++ ';' :: t)).length ≤ v.length + 2 →
      found a b (v ++ [';']) = found a b (v ++ ';' :: t)) : Sealed r := by
  intro u t
  match u with
  | [] =>
    have hNone : r (';' :: t) = none := by
      cases t with
      | nil => exact hOne ';'
      | cons b t => rw [hr, hFirst, if_neg Bool.false_ne_true]
    exact .of_none hNone (hOne ';')
  | [a] =>
    have hNone : ∀ s, r (a :: ';' :: s) = none := by
      intro s
      rw [hr, hSecond, if_neg Bool.false_ne_true]
    exact .of_none (hNone t) (hNone [])
  | a :: b :: v =>
    exact .of_guard (hr a b (v ++ ';' :: t)) (hr a b (v ++ [';'])) fun _ => hFound a b v t

end Sealed

end Recogniser

/-! ### Runs before a semicolon -/

theorem Text.isStop_semicolon : Text.isStop ';' = true := by decide +kernel

theorem stopsAt_spaceRun : StopsAt ';' Text.spaceRun :=
  stopsAt_takeWhile (by decide)

/-- Another character found at a place stands before the semicolon. -/
theorem lt_of_head?_drop {v : List Char} {n : Nat} {c : Char} (hc : c ≠ ';')
    (h : (v.drop n ++ [';']).head? = some c) : n < v.length := by
  cases hRest : v.drop n with
  | nil =>
    rw [hRest] at h
    cases h
    exact absurd rfl hc
  | cons b rest =>
    have hPos := congrArg List.length hRest
    rw [List.length_drop, List.length_cons] at hPos
    omega

theorem Quoted.length?_swap {quote : Char} {escapes : Bool} {a c : Char} {v t : List Char} {n : Nat}
    (h : length? quote escapes (a :: (v ++ c :: t)) = some n) (hn : n ≤ v.length + 1)
    (t' : List Char) : length? quote escapes (a :: (v ++ c :: t')) = some n := by
  obtain ⟨k, hk, rfl⟩ := Option.map_eq_some_iff.1 h
  rw [length?, List.tail_cons, closing?_swap hk (by omega) t', Option.map_some]

/-! ### Plain lexemes -/

namespace Symbol

theorem whitespace?_sealed : Recogniser.Sealed whitespace? := by
  refine .of_head Text.isSpace (fun c rest => .accept .whitespace (Text.spaceRun (c :: rest)))
    (fun _ _ => rfl) whitespace?_progress ?_
  intro c v t _
  simp only [← List.cons_append, stopsAt_spaceRun.swap (c :: v) t []]

/-- A quoted run is sealed: one that closes later takes the semicolon with it. -/
theorem delimited_sealed {quote : Char} {escapes : Bool} {kind : TokenKind} {unclosed : Fault}
    {a : Char} {v t : List Char}
    (h : (delimited quote escapes kind unclosed (a :: (v ++ ';' :: t))).length ≤ v.length + 1) :
    delimited quote escapes kind unclosed (a :: (v ++ [';'])) =
      delimited quote escapes kind unclosed (a :: (v ++ ';' :: t)) := by
  cases hn : Quoted.length? quote escapes (a :: (v ++ ';' :: t)) with
  | none =>
    simp only [delimited, hn, Match.reject_length, List.length_cons, List.length_append] at h
    omega
  | some n =>
    simp only [delimited, hn, Match.accept_length] at h
    simp only [delimited, hn, Quoted.length?_swap hn h []]

theorem string?_sealed (d : Dialect) : Recogniser.Sealed (string? d) :=
  .of_head (fun c => c == '"' && d.on .doubleQuotedStrings)
    (fun c rest => delimited c (d.on .backslashEscapes) .string .unterminatedString (c :: rest))
    (fun _ _ => rfl) (string?_progress d) fun _ _ _ => delimited_sealed

theorem quotedIdentifier?_sealed (d : Dialect) : Recogniser.Sealed (quotedIdentifier? d) :=
  .of_head d.isIdentifierQuote
    (fun c rest => delimited c false .quotedIdentifier .unterminatedQuotedIdentifier (c :: rest))
    (fun _ _ => rfl) (quotedIdentifier?_progress d) fun _ _ _ => delimited_sealed

theorem number?_sealed (before : Option TokenKind) : Recogniser.Sealed (number? before) := by
  refine .of_guard
    (fun text =>
      Number.startsDigit text || (Number.startsFraction text && !before.any (·.isNamePart)))
    (fun text => .accept .number (Number.length text)) ?_ ?_
  · intro u t
    have hDigit := head_swap (f := Number.startsDigit) (fun _ _ _ => rfl) u ';' t []
    have hFraction :
        Number.startsFraction (u ++ [';']) = Number.startsFraction (u ++ ';' :: t) := by
      cases u with
      | nil => rfl
      | cons a v =>
        by_cases ha : a = '.'
        · subst ha
          exact head_swap (f := Number.startsDigit) (fun _ _ _ => rfl) v ';' t []
        · simp [Number.startsFraction, ha]
    rw [hDigit, hFraction]
  · intro u t _ _
    rw [(stopsAt_numberLength Text.isStop_semicolon).swap u t []]

/-- The name of a variable is sealed: one in quotes that stay open is empty. -/
theorem variableNameLength_sealed {w t : List Char}
    (h : variableNameLength (w ++ ';' :: t) ≤ w.length) :
    variableNameLength (w ++ [';']) = variableNameLength (w ++ ';' :: t) := by
  have hRun := (stopsAt_wordRun Text.isStop_semicolon).swap w t []
  cases w with
  | nil => simpa [variableNameLength] using hRun
  | cons q v =>
    simp only [List.cons_append, variableNameLength] at h hRun ⊢
    by_cases hq : (q == '\'' || q == '"' || q == '\x60') = true
    · rw [if_pos hq] at h
      rw [if_pos hq, if_pos hq]
      cases hn : Quoted.length? q false (q :: (v ++ ';' :: t)) with
      | none =>
        have hne : ';' ≠ q := by
          rintro rfl
          revert hq
          decide
        have hOpen : Quoted.closing? q false (v ++ ';' :: t) = none := by
          simpa [Quoted.length?] using hn
        simp [Quoted.length?, Quoted.closing?_truncate hne hOpen]
      | some n =>
        rw [hn, Option.getD_some] at h
        rw [Quoted.length?_swap hn h []]
    · rw [if_neg hq, if_neg hq, hRun]

theorem specialVariable?_sealed (d : Dialect) : Recogniser.Sealed (specialVariable? d) := by
  refine .of_head d.isVariableChar
    (fun c rest => .accept .specialVariable (sigilLength (c :: rest) +
      variableNameLength ((c :: rest).drop (sigilLength (c :: rest)))))
    (fun _ _ => rfl) (specialVariable?_progress d) ?_
  intro c v t h
  have hSigils : sigilLength (c :: (v ++ [';'])) = sigilLength (c :: (v ++ ';' :: t)) ∧
      sigilLength (c :: (v ++ ';' :: t)) ≤ (c :: v).length := by
    have hCons : ∀ b rest, sigilLength (c :: b :: rest) = if c = '@' ∧ b = '@' then 2 else 1 := by
      intro b rest
      by_cases hc : c = '@'
      · by_cases hb : b = '@' <;> simp [sigilLength, hc, hb]
      · simp [sigilLength, hc]
    cases v with
    | nil => simp [hCons]
    | cons b v =>
      simp only [List.cons_append, hCons, List.length_cons, true_and]
      split <;> omega
  have hDrop : ∀ s, (c :: (v ++ ';' :: s)).drop (sigilLength (c :: (v ++ ';' :: t))) =
      (c :: v).drop (sigilLength (c :: (v ++ ';' :: t))) ++ ';' :: s :=
    fun s => List.drop_append_of_le_length hSigils.2
  simp only [Match.accept_length, hDrop] at h
  rw [hSigils.1, hDrop, hDrop, variableNameLength_sealed]
  rw [List.length_drop, List.length_cons]
  omega

theorem punctuation?_sealed : Recogniser.Sealed punctuation? := by
  intro u t
  exact .of_eq (head_swap (fun _ _ _ => rfl) u ';' t [])

theorem operator?_sealed (d : Dialect) : Recogniser.Sealed (operator? d) := by
  refine .of_head d.isOperatorChar (fun _ rest => .accept .operator (operatorRun d rest + 1))
    (fun _ _ => rfl) (operator?_progress d) ?_
  intro c v t h
  have hRun : operatorRun d (v ++ ';' :: t) ≤ v.length := Nat.le_of_succ_le_succ h
  rw [operatorRun_swap d (by decide) (by decide) hRun []]

theorem word?_sealed (d : Dialect) (before : Option TokenKind) :
    Recogniser.Sealed (word? d before) := by
  refine .of_head Text.isWordStart
    (fun c rest => .accept (wordKindAt d before (c :: rest)) (Text.wordRun (c :: rest)))
    (fun _ _ => rfl) (word?_progress d before) ?_
  intro c v t _
  have hStops := stopsAt_wordRun Text.isStop_semicolon
  have hRun := hStops.swap (c :: v) t []
  have hLe := hStops.le (c :: v) t
  have hKind :
      wordKindAt d before (c :: v ++ [';']) = wordKindAt d before (c :: v ++ ';' :: t) := by
    simp only [wordKindAt, hRun]
    rw [List.drop_append_of_le_length hLe, List.drop_append_of_le_length hLe,
      List.take_append_of_le_length hLe, List.take_append_of_le_length hLe,
      head_swap (f := List.head?) (fun _ _ _ => rfl) _ ';' t []]
  rw [← List.cons_append, ← List.cons_append, hKind, hRun]

end Symbol

/-! ### Comments -/

namespace Comment

theorem line?_sealed (d : Dialect) : Recogniser.Sealed (line? d) := by
  refine .of_guard (startsLine d)
    (fun text => .accept .lineComment (text.takeWhile (· != '\n')).length) ?_ ?_
  · exact fun u t => startsLine_swap d (by decide) (by decide) u t []
  · intro u t _ h
    have hRun : (u ++ [';']).takeWhile (· != '\n') = (u ++ ';' :: t).takeWhile (· != '\n') :=
      Text.takeWhile_append_congr (s := ';' :: t) id h
    rw [hRun]

theorem block?_sealed : Recogniser.Sealed block? := by
  intro u t
  have hStart : startsBlock (u ++ [';']) = startsBlock (u ++ ';' :: t) :=
    Brackets.startsWith_swap (by decide) u t []
  cases hBlock : startsBlock (u ++ ';' :: t) with
  | false =>
    rw [hBlock] at hStart
    exact .of_none (by simp [block?, hBlock]) (by simp [block?, hStart])
  | true =>
    have hTwo := Brackets.two_le_of_startsWith_append (by decide) (by decide) hBlock
    rw [hBlock] at hStart
    cases hn : Brackets.comment.close? 0 (u.drop 2 ++ ';' :: t) with
    | none =>
      have hOpen : block? (u ++ ';' :: t) =
          some (.reject .unterminatedBlockComment (u ++ ';' :: t).length) := by
        rw [block?, if_pos hBlock, List.drop_append_of_le_length hTwo, hn]
      refine .of_some hOpen fun hLength _ => ?_
      simp only [Match.reject_length, List.length_append, List.length_cons] at hLength
      omega
    | some n =>
      have hClosed : block? (u ++ ';' :: t) = some (.accept .blockComment (n + 2)) := by
        rw [block?, if_pos hBlock, List.drop_append_of_le_length hTwo, hn]
      refine .of_some hClosed fun hLength _ => ?_
      have hClose : n ≤ (u.drop 2).length := by
        rw [Match.accept_length] at hLength
        rw [List.length_drop]
        omega
      rw [block?, if_pos hStart, List.drop_append_of_le_length hTwo,
        Brackets.close?_swap hn hClose [';']]

end Comment

/-! ### Literals with an introducer -/

namespace Literal

theorem digits?_swap {kind : TokenKind} {isDigit : Char → Bool} (h : isDigit ';' = false)
    (v t : List Char) :
    digits? kind isDigit (v ++ [';']) = digits? kind isDigit (v ++ ';' :: t) := by
  simp only [digits?, Text.takeWhile_append_of_head (s := ';' :: _) h]

theorem radix?_sealed : Recogniser.Sealed radix? := by
  intro u t
  apply Recogniser.SealedAt.of_eq
  match u with
  | [] => rfl
  | [a] => by_cases ha : a = '0' <;> simp [radix?, ha]
  | a :: b :: v =>
    by_cases ha : a = '0'
    · subst ha
      simp only [List.cons_append, radix?]
      rw [digits?_swap (by decide) v t, digits?_swap (by decide) v t]
    · simp [radix?, ha]

/-- The digits of a literal that closes before the semicolon are the same. -/
theorem take_introduced (a b : Char) {v : List Char} {n : Nat} (hn : n ≤ v.length + 2)
    (s : List Char) : (a :: b :: (v ++ s)).take n = (a :: b :: v).take n := by
  rw [← List.cons_append, ← List.cons_append]
  exact List.take_append_of_le_length hn

theorem bits_sealed {d : Dialect} {quote a b : Char} {v t : List Char}
    (h : (bits d quote (a :: b :: (v ++ ';' :: t))).length ≤ v.length + 2) :
    bits d quote (a :: b :: (v ++ [';'])) = bits d quote (a :: b :: (v ++ ';' :: t)) := by
  cases hn : Quoted.length? quote (d.on .bitsAsBytes && d.on .backslashEscapes)
      (b :: (v ++ ';' :: t)) with
  | none =>
    simp only [bits, List.tail_cons, hn, Match.reject_length, List.length_cons,
      List.length_append] at h
    omega
  | some n =>
    have hLength : n ≤ v.length + 1 := by
      simp only [bits, List.tail_cons, hn] at h
      split at h
      · exact Nat.le_of_succ_le_succ h
      · split at h <;> exact Nat.le_of_succ_le_succ h
    have hTake := take_introduced a b (Nat.le_succ_of_le hLength)
    simp only [bits, List.tail_cons, hn, Quoted.length?_swap hn hLength [], hTake]

theorem bits?_sealed (d : Dialect) : Recogniser.Sealed (bits? d) := by
  refine .of_pair
    (fun a b => a.toLower == 'b' && (b == '\'' || (b == '"' && d.on .doubleQuotedBits)))
    (fun a b rest => bits d b (a :: b :: rest)) (fun _ => rfl) (fun _ _ _ => rfl) ?_ ?_ ?_
  · exact fun _ => rfl
  · exact fun a => by simp
  · exact fun _ _ _ _ => bits_sealed

theorem hex_sealed {a b : Char} {v t : List Char}
    (h : (hex (a :: b :: (v ++ ';' :: t))).length ≤ v.length + 2) :
    hex (a :: b :: (v ++ [';'])) = hex (a :: b :: (v ++ ';' :: t)) := by
  cases hn : Quoted.length? '\'' false (b :: (v ++ ';' :: t)) with
  | none =>
    simp only [hex, List.tail_cons, hn, Match.reject_length, List.length_cons,
      List.length_append] at h
    omega
  | some n =>
    have hLength : n ≤ v.length + 1 := by
      simp only [hex, List.tail_cons, hn] at h
      split at h <;> exact Nat.le_of_succ_le_succ h
    have hTake := take_introduced a b (Nat.le_succ_of_le hLength)
    simp only [hex, List.tail_cons, hn, Quoted.length?_swap hn hLength [], hTake]

theorem hex?_sealed : Recogniser.Sealed hex? := by
  refine .of_pair (fun a b => b == '\'' && a.toLower == 'x') (fun a b rest => hex (a :: b :: rest))
    (fun _ => rfl) ?_ ?_ ?_ ?_
  · intro a b rest
    by_cases hb : b = '\'' <;> simp [hex?, hb]
  · exact fun b => by simp
  · exact fun _ => rfl
  · exact fun _ _ _ _ => hex_sealed

/-- A string after an introducer is sealed. -/
theorem introduced_sealed {introducer : Nat} {escapes : Bool} {u t : List Char}
    (hShort : introducer < u.length)
    (h : (introduced introducer escapes (u ++ ';' :: t)).length ≤ u.length) :
    introduced introducer escapes (u ++ [';']) = introduced introducer escapes (u ++ ';' :: t) := by
  have hDrop : ∀ s, (u ++ ';' :: s).drop introducer =
      u.get ⟨introducer, hShort⟩ :: (u.drop (introducer + 1) ++ ';' :: s) := by
    intro s
    rw [List.drop_append_of_le_length (Nat.le_of_lt hShort), List.drop_eq_getElem_cons hShort]
    rfl
  cases hn : Quoted.length? '\'' escapes ((u ++ ';' :: t).drop introducer) with
  | none =>
    simp only [introduced, hn, Match.reject_length, List.length_append, List.length_cons] at h
    omega
  | some n =>
    simp only [introduced, hn, Match.accept_length] at h
    rw [hDrop] at hn
    have hLength : n ≤ (u.drop (introducer + 1)).length + 1 := by
      rw [List.length_drop]
      omega
    simp only [introduced, hDrop, hn, Quoted.length?_swap hn hLength []]

theorem escape?_sealed : Recogniser.Sealed escape? := by
  refine .of_pair (fun a b => b == '\'' && a.toLower == 'e')
    (fun a b rest => introduced 1 true (a :: b :: rest)) (fun _ => rfl) ?_ ?_ ?_ ?_
  · intro a b rest
    by_cases hb : b = '\'' <;> simp [escape?, hb]
  · exact fun b => by simp
  · exact fun _ => rfl
  · exact fun a b v t h => introduced_sealed (u := a :: b :: v) (by simp) h

theorem national?_sealed (d : Dialect) : Recogniser.Sealed (national? d) := by
  refine .of_pair (fun a b => b == '\'' && (a.toLower == 'n' && d.on .charsetStrings))
    (fun a b rest => introduced 1 (d.on .backslashEscapes) (a :: b :: rest)) (fun _ => rfl)
    ?_ ?_ ?_ ?_
  · intro a b rest
    by_cases hb : b = '\'' <;> simp [national?, hb]
  · exact fun b => by simp
  · exact fun _ => rfl
  · exact fun a b v t h => introduced_sealed (u := a :: b :: v) (by simp) h

theorem charset?_sealed (d : Dialect) : Recogniser.Sealed (charset? d) := by
  intro u t
  cases u with
  | nil => exact .of_none rfl rfl
  | cons a v =>
    by_cases ha : a = '_'
    · subst ha
      have hName : ∀ s, ((v ++ ';' :: s).takeWhile Char.isAlphanum).length =
          (v.takeWhile Char.isAlphanum).length := by
        intro s
        have hStop : Char.isAlphanum ';' = false := by decide
        rw [Text.takeWhile_append_of_head (p := Char.isAlphanum) (s := ';' :: s) hStop]
      have hLe := Text.length_takeWhile_le Char.isAlphanum v
      have hHead : ∀ s, ((v ++ ';' :: s).drop (v.takeWhile Char.isAlphanum).length).head? =
          (v.drop (v.takeWhile Char.isAlphanum).length ++ [';']).head? := by
        intro s
        rw [List.drop_append_of_le_length hLe, head_swap (f := List.head?) (fun _ _ _ => rfl)]
      have hCharset : ∀ s, charset? d ('_' :: v ++ ';' :: s) =
          if d.on .charsetStrings && 2 ≤ (v.takeWhile Char.isAlphanum).length &&
              (v.drop (v.takeWhile Char.isAlphanum).length ++ [';']).head? == some '\'' then
            some (introduced ((v.takeWhile Char.isAlphanum).length + 1) (d.on .backslashEscapes)
              ('_' :: v ++ ';' :: s))
          else none := by
        intro s
        simp only [List.cons_append, charset?, hName, hHead]
      refine .of_guard (hCharset t) (hCharset []) fun hp hLength => ?_
      refine introduced_sealed (u := '_' :: v) ?_ hLength
      simp only [Bool.and_eq_true, beq_iff_eq] at hp
      exact Nat.succ_lt_succ (lt_of_head?_drop (by decide) hp.2)
    · have hNone : ∀ s, charset? d (a :: v ++ ';' :: s) = none := fun s => by simp [charset?, ha]
      exact .of_none (hNone t) (hNone [])

/-- The tag of a dollar quote ends before the semicolon. -/
theorem tagLength?_swap (v t : List Char) :
    tagLength? (v ++ [';']) = tagLength? (v ++ ';' :: t) ∧
      ∀ n, tagLength? (v ++ ';' :: t) = some n → n < v.length := by
  have hStops := stopsAt_wordRun Text.isStop_semicolon
  cases v with
  | nil =>
    have hStart : Text.isWordStart ';' = false := Text.isWordStart_of_isStop Text.isStop_semicolon
    simp [tagLength?, Text.startsWord, hStart]
  | cons a v =>
    by_cases ha : a = '$'
    · subst ha
      simp [tagLength?]
    · have hRun := hStops.swap (a :: v) t []
      have hLe := hStops.le (a :: v) t
      have hHead : ∀ s, ((a :: v ++ ';' :: s).drop (Text.wordRun (a :: v ++ ';' :: t))).head? =
          ((a :: v).drop (Text.wordRun (a :: v ++ ';' :: t)) ++ [';']).head? := fun s => by
        rw [List.drop_append_of_le_length hLe, head_swap (f := List.head?) (fun _ _ _ => rfl)]
      have hTag : ∀ s, tagLength? (a :: v ++ ';' :: s) =
          if Text.isWordStart a &&
              ((a :: v).drop (Text.wordRun (a :: v ++ ';' :: t)) ++ [';']).head? == some '$' then
            some (Text.wordRun (a :: v ++ ';' :: t)) else none := by
        intro s
        rw [← hHead s, ← hStops.swap (a :: v) t s]
        simp [tagLength?, ha, Text.startsWord]
      refine ⟨by rw [hTag, hTag], fun n hn => ?_⟩
      rw [hTag] at hn
      simp only [Option.ite_none_right_eq_some, Option.some.injEq, Bool.and_eq_true,
        beq_iff_eq] at hn
      obtain ⟨⟨_, hDollar⟩, rfl⟩ := hn
      exact lt_of_head?_drop (by decide) hDollar

theorem dollar_sealed {width : Nat} {u t : List Char} (hWidth : width ≤ u.length)
    (h : (dollar width (u ++ ';' :: t)).length ≤ u.length) :
    dollar width (u ++ [';']) = dollar width (u ++ ';' :: t) := by
  simp only [dollar, List.take_append_of_le_length hWidth,
    List.drop_append_of_le_length hWidth] at h ⊢
  cases hn : Text.indexOf? (u.take width) (u.drop width ++ ';' :: t) with
  | none =>
    simp only [hn, Match.reject_length, List.length_append, List.length_cons] at h
    omega
  | some n =>
    simp only [hn, Match.accept_length] at h
    have hOccurs : n + (u.take width).length ≤ (u.drop width).length := by
      rw [List.length_take, List.length_drop]
      omega
    rw [Text.indexOf?_swap hn hOccurs [';']]

theorem dollar?_sealed (d : Dialect) : Recogniser.Sealed (dollar? d) := by
  intro u t
  cases u with
  | nil => exact .of_none rfl rfl
  | cons a v =>
    by_cases ha : a = '$' ∧ d.on .dollarQuotes = true
    · obtain ⟨rfl, hOn⟩ := ha
      obtain ⟨hTag, hShort⟩ := tagLength?_swap v t
      cases hn : tagLength? (v ++ ';' :: t) with
      | none =>
        rw [hn] at hTag
        exact .of_none (by simp [dollar?, hn]) (by simp [dollar?, hTag])
      | some n =>
        rw [hn] at hTag
        have hDollar : dollar? d ('$' :: v ++ ';' :: t) =
            some (dollar (n + 2) ('$' :: v ++ ';' :: t)) := by
          simp [dollar?, hOn, hn]
        refine .of_some hDollar fun hLength _ => ?_
        have hWidth : n + 2 ≤ ('$' :: v).length := Nat.succ_le_succ (hShort n hn)
        rw [← dollar_sealed hWidth hLength]
        simp [dollar?, hOn, hTag]
    · have hNone : ∀ s, dollar? d (a :: v ++ ';' :: s) = none := by
        intro s
        by_cases hDollar : a = '$'
        · have hOff : d.on .dollarQuotes = false := by simpa [hDollar] using ha
          simp [dollar?, hDollar, hOff]
        · simp [dollar?, hDollar]
      exact .of_none (hNone t) (hNone [])

theorem match?_sealed (d : Dialect) : Recogniser.Sealed (match? d) := by
  apply Recogniser.Sealed.firstOf
  simp only [forms, List.forall_mem_cons, List.not_mem_nil, false_imp_iff, implies_true, and_true]
  exact ⟨radix?_sealed, bits?_sealed d, hex?_sealed, escape?_sealed, national?_sealed d,
    charset?_sealed d, dollar?_sealed d⟩

end Literal

/-! ### Placeholders -/

namespace Placeholder

theorem recover_sealed {start : Nat} {fault unclosed : Fault} {u t : List Char}
    (hStart : start ≤ u.length)
    (h : (recover (u ++ ';' :: t) start fault unclosed).length ≤ u.length) :
    recover (u ++ [';']) start fault unclosed = recover (u ++ ';' :: t) start fault unclosed := by
  simp only [recover, List.drop_append_of_le_length hStart] at h ⊢
  cases hn : Text.indexOf? ['}', '}'] (u.drop start ++ ';' :: t) with
  | none =>
    simp only [hn, Match.reject_length, List.length_append, List.length_cons] at h
    omega
  | some n =>
    simp only [hn, Match.reject_length] at h
    have hOccurs : n + ['}', '}'].length ≤ (u.drop start).length := by
      simp only [List.length_drop, List.length_cons, List.length_nil]
      omega
    rw [Text.indexOf?_swap hn hOccurs [';']]

theorem recoverNested_sealed {start : Nat} {u t : List Char} (hStart : start ≤ u.length)
    (h : (recoverNested (u ++ ';' :: t) start).length ≤ u.length) :
    recoverNested (u ++ [';']) start = recoverNested (u ++ ';' :: t) start := by
  simp only [recoverNested, List.drop_append_of_le_length hStart] at h ⊢
  cases hn : Brackets.placeholder.close? 0 (u.drop start ++ ';' :: t) with
  | none =>
    simp only [hn, Match.reject_length, List.length_append, List.length_cons] at h
    omega
  | some n =>
    simp only [hn, Match.reject_length] at h
    have hClose : n ≤ (u.drop start).length := by
      rw [List.length_drop]
      omega
    rw [Brackets.close?_swap hn hClose [';']]

/-- What is wrong with an expression is wrong with it before the semicolon: a
string that stays open also stays open in the shorter text. -/
theorem expression_error_sealed {d : Dialect} {v t : List Char} {fault : Fault}
    (h : expression d (v ++ ';' :: t) = .error fault) :
    expression d (v ++ [';']) = .error fault := by
  cases v with
  | nil => exact h
  | cons a v =>
    simp only [List.cons_append, expression] at h ⊢
    split at h
    · next hQuote =>
      rw [if_pos hQuote]
      cases hn : Quoted.length? a (d.on .backslashEscapes) (a :: (v ++ ';' :: t)) with
      | none =>
        have hne : ';' ≠ a := by
          rintro rfl
          revert hQuote
          decide
        have hOpen : Quoted.closing? a (d.on .backslashEscapes) (v ++ ';' :: t) = none := by
          simpa [Quoted.length?] using hn
        rw [hn] at h
        simpa [Quoted.length?, Quoted.closing?_truncate hne hOpen] using h
      | some n =>
        rw [hn] at h
        cases h
    · next hQuote =>
      rw [if_neg hQuote]
      split at h
      · cases h
      · next hDigit =>
        rw [if_neg hDigit]
        split at h
        · cases h
        · next hWord =>
          rw [if_neg hWord]
          exact h

theorem start_le_recover {text : List Char} {start : Nat} (h : start ≤ text.length)
    (fault unclosed : Fault) : start ≤ (recover text start fault unclosed).length := by
  unfold recover
  split
  · rw [Match.reject_length]
    omega
  · exact h

/-- **Placeholders are sealed**, well-formed or not. -/
theorem scan_sealed {d : Dialect} {u t : List Char} (hOpen : startsOpen (u ++ ';' :: t) = true)
    (h : (scan d (u ++ ';' :: t)).length ≤ u.length) :
    scan d (u ++ [';']) = scan d (u ++ ';' :: t) := by
  have hTwo : 2 ≤ u.length := Brackets.two_le_of_startsWith_append (by decide) (by decide) hOpen
  have hStart : ∀ s, expressionStart (u ++ ';' :: s) = expressionStart (u ++ ';' :: t) := by
    intro s
    simp only [expressionStart, List.drop_append_of_le_length hTwo,
      stopsAt_spaceRun.swap (u.drop 2) t s]
  have hStartLe : expressionStart (u ++ ';' :: t) ≤ u.length := by
    have hRun := stopsAt_spaceRun.le (u.drop 2) t
    rw [List.length_drop] at hRun
    simp only [expressionStart, List.drop_append_of_le_length hTwo]
    omega
  rw [scan_eq] at h
  rw [scan_eq, scan_eq]
  simp only [hStart] at h ⊢
  generalize expressionStart (u ++ ';' :: t) = start at h hStartLe hStart ⊢
  simp only [List.drop_append_of_le_length hStartLe] at h ⊢
  have hNested : startsOpen (u.drop start ++ [';']) = startsOpen (u.drop start ++ ';' :: t) :=
    Brackets.startsWith_swap (by decide) _ t []
  rw [hNested]
  split at h
  · next hInner =>
    rw [if_pos hInner, if_pos hInner, recoverNested_sealed hStartLe h]
  · next hInner =>
    rw [if_neg hInner, if_neg hInner]
    cases hExpression : expression d (u.drop start ++ ';' :: t) with
    | error fault =>
      rw [hExpression] at h
      rw [expression_error_sealed hExpression]
      exact recover_sealed hStartLe h
    | ok n =>
      simp only [hExpression] at h
      have hClose : closeStart (u ++ ';' :: t) n ≤ u.length := by
        have hInText : closeStart (u ++ ';' :: t) n ≤ (u ++ ';' :: t).length := by
          refine closeStart_le (d := d) (by rw [List.length_append]; omega) ?_
          rw [hStart, List.drop_append_of_le_length hStartLe, hExpression]
        split at h
        · rw [Match.accept_length] at h
          omega
        · exact Nat.le_trans (start_le_recover hInText _ _) h
      have hStop : start + n ≤ u.length := by
        rw [closeStart, hStart] at hClose
        omega
      have hCloseSwap : closeStart (u ++ [';']) n = closeStart (u ++ ';' :: t) n := by
        simp only [closeStart, hStart, List.drop_append_of_le_length hStop,
          stopsAt_spaceRun.swap (u.drop (start + n)) t []]
      have hMark : startsClose ((u ++ [';']).drop (closeStart (u ++ ';' :: t) n)) =
          startsClose ((u ++ ';' :: t).drop (closeStart (u ++ ';' :: t) n)) := by
        rw [List.drop_append_of_le_length hClose, List.drop_append_of_le_length hClose]
        exact Brackets.startsWith_swap (by decide) _ t []
      have hSwap : expression d (u.drop start ++ [';']) = .ok n :=
        expression_swap Text.isStop_semicolon hExpression (by rw [List.length_drop]; omega) []
      simp only [hSwap, hCloseSwap, hMark]
      split at h
      · next hFound => rw [if_pos hFound, if_pos hFound]
      · next hFound => rw [if_neg hFound, if_neg hFound, recover_sealed hClose h]

theorem match?_sealed (d : Dialect) : Recogniser.Sealed (match? d) :=
  .of_guard startsOpen (scan d) (fun u t => Brackets.startsWith_swap (by decide) u t [])
    fun _ _ => scan_sealed

theorem unmatchedClose?_sealed : Recogniser.Sealed unmatchedClose? :=
  .of_guard startsClose (fun _ => .reject .unmatchedPlaceholderClose 2)
    (fun u t => Brackets.startsWith_swap (by decide) u t []) fun _ _ _ _ => rfl

end Placeholder

/-! ### One step -/

theorem Region.apostrophe?_sealed (d : Dialect) : Recogniser.Sealed (Region.apostrophe? d) := by
  intro u t
  cases u with
  | nil => exact .of_none rfl rfl
  | cons a v =>
    by_cases ha : a = '\''
    · subst ha
      cases hPlan : QuotePlan.ofText (d.on .backslashEscapes) (v ++ ';' :: t) with
      | string n =>
        have hString : Region.apostrophe? d ('\'' :: v ++ ';' :: t) =
            some (.accept .string (n + 1)) := by
          rw [List.cons_append, Region.apostrophe?, hPlan]
        refine .of_some hString fun hLength _ => ?_
        rw [List.cons_append, Region.apostrophe?,
          QuotePlan.ofText_swap hPlan (Nat.le_of_succ_le_succ hLength) []]
      | unterminated =>
        have hOpen : Region.apostrophe? d ('\'' :: v ++ ';' :: t) =
            some (.reject .unterminatedString ((v ++ ';' :: t).length + 1)) := by
          rw [List.cons_append, Region.apostrophe?, hPlan]
        refine .of_some hOpen fun hLength _ => ?_
        simp only [Match.reject_length, List.length_append, List.length_cons] at hLength
        omega
      | region =>
        have hRegion : Region.apostrophe? d ('\'' :: v ++ ';' :: t) =
            some (.accept .regionQuote 1) := by
          rw [List.cons_append, Region.apostrophe?, hPlan]
        exact .of_some hRegion fun _ hVerdict => absurd rfl hVerdict
    · have hNone : ∀ s, Region.apostrophe? d (a :: v ++ ';' :: s) = none := by
        intro s
        simp [Region.apostrophe?, ha]
      exact .of_none (hNone t) (hNone [])

namespace Lexeme

theorem Form.recogniser_sealed (d : Dialect) (before : Option TokenKind) (f : Form) :
    Recogniser.Sealed (f.recogniser d before) := by
  cases f with
  | whitespace => exact Symbol.whitespace?_sealed
  | placeholder => exact Placeholder.match?_sealed d
  | unmatchedClose => exact Placeholder.unmatchedClose?_sealed
  | apostrophe => exact Region.apostrophe?_sealed d
  | literal => exact Literal.match?_sealed d
  | lineComment => exact Comment.line?_sealed d
  | blockComment => exact Comment.block?_sealed
  | doubleQuoted => exact Symbol.string?_sealed d
  | quotedIdentifier => exact Symbol.quotedIdentifier?_sealed d
  | number => exact Symbol.number?_sealed before
  | specialVariable => exact Symbol.specialVariable?_sealed d
  | punctuation => exact Symbol.punctuation?_sealed
  | operator => exact Symbol.operator?_sealed d
  | word => exact Symbol.word?_sealed d before

theorem firstOf_forms_sealed (d : Dialect) (before : Option TokenKind) :
    Recogniser.Sealed (Recogniser.firstOf (forms d before)) := by
  apply Recogniser.Sealed.firstOf
  rw [Form.forms_eq]
  intro r hr
  obtain ⟨f, _, rfl⟩ := List.mem_map.1 hr
  exact f.recogniser_sealed d before

/-- **One step of reading is sealed**, unless it opens a quoted region. -/
theorem next_sealed {d : Dialect} {before : Option TokenKind} {u t : List Char}
    (h : (next d before (u ++ ';' :: t)).length ≤ u.length)
    (hQuote : (next d before (u ++ ';' :: t)).verdict ≠ accept .regionQuote) :
    next d before (u ++ [';']) = next d before (u ++ ';' :: t) := by
  have hSealed := firstOf_forms_sealed d before u t
  unfold next at h hQuote ⊢
  cases hFound : Recogniser.firstOf (forms d before) (u ++ ';' :: t) with
  | none => rw [hSealed.1 hFound]
  | some m =>
    rw [hFound, Option.getD_some] at h hQuote
    rw [hSealed.2 m hFound h hQuote]

end Lexeme

end SqlTemplate
