import SqlTemplate.Proofs.Lexemes

/-!
# How far reading goes

The runs and searches under the recognisers look as far ahead as they like, but
the length they answer with is never greater than the text they were given.
This file shows it for each of them, up to whole placeholders and literals.
The places where a number and a placeholder are cut in the middle get names
here (`Number.mantissaLength`, `Placeholder.expressionStart`,
`Placeholder.closeStart`), and `Number.length_eq` and `Placeholder.scan_eq` say
that these are the places where reading cuts.
-/

namespace SqlTemplate

/-! ### Runs -/

theorem Text.length_takeWhile_le (p : Char → Bool) (text : List Char) :
    (text.takeWhile p).length ≤ text.length :=
  (List.takeWhile_sublist p).length_le

/-- A run of characters with a property is followed by no other such character. -/
theorem Text.head?_drop_run (p : Char → Bool) (text : List Char) :
    (text.drop (text.takeWhile p).length).head?.any p = false := by
  induction text with
  | nil => rfl
  | cons c rest ih =>
    rw [List.takeWhile_cons]
    split
    · rw [List.length_cons, List.drop_succ_cons]
      exact ih
    · next hc =>
      rw [List.length_nil, List.drop_zero, List.head?_cons, Option.any_some]
      exact Bool.eq_false_iff.2 hc

theorem Text.take_run (p : Char → Bool) (text : List Char) :
    text.take (text.takeWhile p).length = text.takeWhile p :=
  (List.prefix_iff_eq_take.1 (List.takeWhile_prefix p)).symm

theorem Text.takeWhile_of_head {p : Char → Bool} {s : List Char} (h : s.head?.any p = false) :
    s.takeWhile p = [] := by
  cases s with
  | nil => rfl
  | cons c t => exact List.takeWhile_cons_of_neg (Bool.eq_false_iff.1 h)

/-- **A run does not enter a text with another character at its head.** -/
theorem Text.takeWhile_append_of_head {p : Char → Bool} {s : List Char}
    (h : s.head?.any p = false) (u : List Char) : (u ++ s).takeWhile p = u.takeWhile p := by
  rw [List.takeWhile_append, Text.takeWhile_of_head h, List.append_nil]
  split
  · next hAll => exact ((List.takeWhile_prefix p).eq_of_length hAll).symm
  · rfl

/-- A run of the characters of a class ends before the first other character. -/
theorem Text.takeWhile_run {p : Char → Bool} {run rest : List Char}
    (hRun : ∀ c ∈ run, p c = true) (hRest : rest.head?.any p = false) :
    (run ++ rest).takeWhile p = run := by
  rw [List.takeWhile_append_of_pos hRun, Text.takeWhile_of_head hRest, List.append_nil]

/-- **A run that ends before a text** ends at the same place before another text, unless
it goes on there for the first time. -/
theorem Text.takeWhile_append_congr {p : Char → Bool} {u s s' : List Char}
    (hHead : s'.head?.any p = true → s.head?.any p = true)
    (h : ((u ++ s).takeWhile p).length ≤ u.length) :
    (u ++ s').takeWhile p = (u ++ s).takeWhile p := by
  by_cases hAll : (u.takeWhile p).length = u.length
  · -- the run reaches `s`, so it must stop there
    have hOld : s.head?.any p = false := by
      rw [List.takeWhile_append, if_pos hAll, List.length_append] at h
      cases s with
      | nil => rfl
      | cons c t =>
        cases hc : p c with
        | false => exact hc
        | true =>
          rw [List.takeWhile_cons_of_pos hc, List.length_cons] at h
          omega
    have hNew : s'.head?.any p = false :=
      Bool.eq_false_iff.2 fun hTrue => by rw [hHead hTrue] at hOld; cases hOld
    rw [Text.takeWhile_append_of_head hNew, Text.takeWhile_append_of_head hOld]
  · rw [List.takeWhile_append, if_neg hAll, List.takeWhile_append, if_neg hAll]

theorem Text.spaceRun_le (text : List Char) : Text.spaceRun text ≤ text.length :=
  Text.length_takeWhile_le _ _

theorem Text.wordRun_le (text : List Char) : Text.wordRun text ≤ text.length :=
  Text.length_takeWhile_le _ _

theorem Symbol.operatorRun_le (d : Dialect) (text : List Char) :
    Symbol.operatorRun d text ≤ text.length := by
  induction text with
  | nil => exact Nat.le_refl 0
  | cons c rest ih =>
    rw [Symbol.operatorRun, List.length_cons]
    split <;> omega

theorem Placeholder.pathLength_le (text : List Char) :
    Placeholder.pathLength text ≤ text.length := by
  induction text with
  | nil => exact Nat.le_refl 0
  | cons c rest ih =>
    rw [Placeholder.pathLength, List.length_cons]
    split <;> omega

theorem Region.contentLength_le (escapes : Bool) (count : Nat) (text : List Char) :
    Region.contentLength escapes count text ≤ text.length := by
  fun_induction Region.contentLength escapes count text with
  | case1 => exact Nat.zero_le _
  | case2 => exact Nat.zero_le _
  | case3 c hQuote next after hDouble ih =>
    simp only [List.length_cons]
    omega
  | case4 => exact Nat.zero_le _
  | case5 => exact Nat.le_refl 1
  | case6 c hQuote hEscape next after ih =>
    simp only [List.length_cons]
    omega
  | case7 => exact Nat.zero_le _
  | case8 c rest hQuote hEscape hStop ih => exact Nat.succ_le_succ ih

/-! ### Searches -/

namespace Quoted

theorem closing?_le {quote : Char} {escapes : Bool} {text : List Char} {n : Nat}
    (h : closing? quote escapes text = some n) : n ≤ text.length := by
  fun_induction closing? quote escapes text generalizing n with
  | case1 => simp at h
  | case2 => simp at h
  | case3 c hEscape next after ih =>
    obtain ⟨m, hm, rfl⟩ := Option.map_eq_some_iff.1 h
    have := ih hm
    simp only [List.length_cons]
    omega
  | case4 c hEscape hQuote => simp_all
  | case5 c hEscape hQuote next after hNext ih =>
    obtain ⟨m, hm, rfl⟩ := Option.map_eq_some_iff.1 h
    have := ih hm
    simp only [List.length_cons]
    omega
  | case6 c hEscape hQuote next after hNext =>
    cases h
    simp
  | case7 c rest hEscape hQuote ih =>
    obtain ⟨m, hm, rfl⟩ := Option.map_eq_some_iff.1 h
    have := ih hm
    simp only [List.length_cons]
    omega

theorem length?_le {quote : Char} {escapes : Bool} {text : List Char} {n : Nat}
    (h : length? quote escapes text = some n) : n ≤ text.length := by
  obtain ⟨m, hm, rfl⟩ := Option.map_eq_some_iff.1 h
  have := closing?_le hm
  cases text with
  | nil => simp [closing?] at hm
  | cons c rest => simpa using this

end Quoted

theorem Brackets.close?_le {b : Brackets} {depth : Nat} {text : List Char} {n : Nat}
    (h : b.close? depth text = some n) : n ≤ text.length := by
  fun_induction Brackets.close? b depth text generalizing n with
  | case1 depth c d rest hOpen ih =>
    obtain ⟨m, hm, rfl⟩ := Option.map_eq_some_iff.1 h
    have := ih hm
    simp only [List.length_cons]
    omega
  | case2 c d rest hOpen hClose =>
    cases h
    simp
  | case3 c d rest hOpen hClose outer ih =>
    obtain ⟨m, hm, rfl⟩ := Option.map_eq_some_iff.1 h
    have := ih hm
    simp only [List.length_cons]
    omega
  | case4 depth c d rest hOpen hClose ih =>
    obtain ⟨m, hm, rfl⟩ := Option.map_eq_some_iff.1 h
    have := ih hm
    simp only [List.length_cons] at this ⊢
    omega
  | case5 => simp at h

/-- An occurrence ends inside the text. -/
theorem Text.indexOf?_le {pattern text : List Char} {n : Nat}
    (h : Text.indexOf? pattern text = some n) : n + pattern.length ≤ text.length := by
  induction text generalizing n with
  | nil =>
    rw [Text.indexOf?] at h
    split at h
    · next hEmpty =>
      cases h
      simp [List.isEmpty_iff.1 hEmpty]
    · simp at h
  | cons c rest ih =>
    rw [Text.indexOf?] at h
    split at h
    · next hPrefix =>
      cases h
      have := (List.isPrefixOf_iff_prefix.1 hPrefix).length_le
      omega
    · obtain ⟨m, hm, rfl⟩ := Option.map_eq_some_iff.1 h
      have := ih hm
      simp only [List.length_cons]
      omega

theorem QuotePlan.shift_eq_string_iff {k n : Nat} {plan : QuotePlan} :
    plan.shift k = .string n ↔ ∃ m, plan = .string m ∧ n = m + k := by
  cases plan with
  | string m =>
    simp only [shift, string.injEq, exists_eq_left']
    omega
  | unterminated => simp [shift]
  | region => simp [shift]

theorem QuotePlan.ofText_le {escapes : Bool} {text : List Char} {n : Nat}
    (h : QuotePlan.ofText escapes text = .string n) : n ≤ text.length := by
  fun_induction QuotePlan.ofText escapes text generalizing n with
  | case1 => cases h
  | case2 => cases h
  | case3 c hEscape next after ih =>
    obtain ⟨m, hm, rfl⟩ := QuotePlan.shift_eq_string_iff.1 h
    have := ih hm
    simp only [List.length_cons]
    omega
  | case4 c hEscape hQuote =>
    cases h
    exact Nat.le_refl 1
  | case5 c hEscape hQuote next after hNext ih =>
    obtain ⟨m, hm, rfl⟩ := QuotePlan.shift_eq_string_iff.1 h
    have := ih hm
    simp only [List.length_cons]
    omega
  | case6 c hEscape hQuote next after hNext =>
    cases h
    exact Nat.le_add_left 1 _
  | case7 => cases h
  | case8 c rest hEscape hQuote hBrace ih =>
    obtain ⟨m, hm, rfl⟩ := QuotePlan.shift_eq_string_iff.1 h
    have := ih hm
    simp only [List.length_cons]
    omega

/-! ### Numbers -/

namespace Number

theorem digitRun_le (text : List Char) : digitRun text ≤ text.length :=
  Text.length_takeWhile_le _ _

theorem fractionLength_le (digits : Bool) (text : List Char) :
    fractionLength digits text ≤ text.length := by
  unfold fractionLength
  split
  · next rest =>
    have := digitRun_le rest
    rw [List.length_cons]
    split
    · omega
    · split <;> omega
  · exact Nat.zero_le _

theorem signLength_le (text : List Char) : signLength text ≤ text.length := by
  unfold signLength
  split <;> simp

theorem exponentLength_le (text : List Char) : exponentLength text ≤ text.length := by
  cases text with
  | nil => exact Nat.le_refl 0
  | cons c rest =>
    have hSign := signLength_le rest
    have hDigits := digitRun_le (rest.drop (signLength rest))
    rw [List.length_drop] at hDigits
    simp only [exponentLength, List.length_cons]
    split
    · split <;> omega
    · omega

/-- Length of a number without its exponent. -/
def mantissaLength (text : List Char) : Nat :=
  digitRun text + fractionLength (0 < digitRun text) (text.drop (digitRun text))

theorem length_eq (text : List Char) :
    length text = mantissaLength text + exponentLength (text.drop (mantissaLength text)) := rfl

theorem mantissaLength_le (text : List Char) : mantissaLength text ≤ text.length := by
  have hWhole := digitRun_le text
  have hFraction := fractionLength_le (0 < digitRun text) (text.drop (digitRun text))
  rw [List.length_drop] at hFraction
  unfold mantissaLength
  omega

theorem length_le (text : List Char) : length text ≤ text.length := by
  have hMantissa := mantissaLength_le text
  have hExponent := exponentLength_le (text.drop (mantissaLength text))
  rw [List.length_drop] at hExponent
  rw [length_eq]
  omega

end Number

/-! ### Placeholders -/

theorem Brackets.two_le_of_startsWith {mark : Char × Char} {text : List Char}
    (h : Brackets.startsWith mark text = true) : 2 ≤ text.length := by
  unfold Brackets.startsWith at h
  split at h
  · simp
  · simp at h

namespace Placeholder

theorem expression_le {d : Dialect} {text : List Char} {n : Nat}
    (h : expression d text = .ok n) : n ≤ text.length := by
  unfold expression at h
  split at h
  · simp at h
  · split at h
    · split at h
      · next hLength =>
        cases h
        exact Quoted.length?_le hLength
      · simp at h
    · split at h
      · cases h
        exact Number.length_le _
      · split at h
        · cases h
          exact pathLength_le _
        · simp at h

theorem recover_le (text : List Char) (start : Nat) (fault unclosed : Fault)
    (hStart : start ≤ text.length) : (recover text start fault unclosed).length ≤ text.length := by
  unfold recover
  split
  · next n hn =>
    have hOccurs := Text.indexOf?_le hn
    simp only [List.length_drop, List.length_cons, List.length_nil] at hOccurs
    simp only [Match.reject_length]
    omega
  · exact Nat.le_refl _

theorem recoverNested_le (text : List Char) (start : Nat) (hStart : start ≤ text.length) :
    (recoverNested text start).length ≤ text.length := by
  unfold recoverNested
  split
  · next n hn =>
    have hClose := Brackets.close?_le hn
    rw [List.length_drop] at hClose
    simp only [Match.reject_length]
    omega
  · exact Nat.le_refl _

/-- Where the expression of a placeholder starts. -/
def expressionStart (text : List Char) : Nat := 2 + Text.spaceRun (text.drop 2)

/-- Where a placeholder with an expression of `n` characters should close. -/
def closeStart (text : List Char) (n : Nat) : Nat :=
  expressionStart text + n + Text.spaceRun (text.drop (expressionStart text + n))

theorem scan_eq (d : Dialect) (text : List Char) :
    scan d text =
      if startsOpen (text.drop (expressionStart text)) then
        recoverNested text (expressionStart text)
      else
        match expression d (text.drop (expressionStart text)) with
        | .error fault => recover text (expressionStart text) fault fault
        | .ok n =>
          if startsClose (text.drop (closeStart text n)) then
            .accept .placeholder (closeStart text n + 2)
          else
            recover text (closeStart text n) .expectedPlaceholderClose .unterminatedPlaceholder :=
  rfl

theorem expressionStart_le {text : List Char} (h : 2 ≤ text.length) :
    expressionStart text ≤ text.length := by
  have hRun := Text.spaceRun_le (text.drop 2)
  rw [List.length_drop] at hRun
  unfold expressionStart
  omega

theorem expressionStop_le {d : Dialect} {text : List Char} {n : Nat} (h : 2 ≤ text.length)
    (hn : expression d (text.drop (expressionStart text)) = .ok n) :
    expressionStart text + n ≤ text.length := by
  have hStart := expressionStart_le h
  have hLength := expression_le hn
  rw [List.length_drop] at hLength
  omega

theorem closeStart_le {d : Dialect} {text : List Char} {n : Nat} (h : 2 ≤ text.length)
    (hn : expression d (text.drop (expressionStart text)) = .ok n) :
    closeStart text n ≤ text.length := by
  have hStop := expressionStop_le h hn
  have hRun := Text.spaceRun_le (text.drop (expressionStart text + n))
  rw [List.length_drop] at hRun
  unfold closeStart
  omega

theorem scan_le (d : Dialect) {text : List Char} (h : 2 ≤ text.length) :
    (scan d text).length ≤ text.length := by
  rw [scan_eq]
  split
  · exact recoverNested_le _ _ (expressionStart_le h)
  · split
    · exact recover_le _ _ _ _ (expressionStart_le h)
    · next n hn =>
      have hClose := closeStart_le h hn
      split
      · next hMark =>
        have := Brackets.two_le_of_startsWith hMark
        rw [List.length_drop] at this
        simp only [Match.accept_length]
        omega
      · exact recover_le _ _ _ _ hClose

end Placeholder

/-! ### Literals -/

namespace Literal

/-- The body of a literal with an introducer of one letter lies between the
introducer and the closing quote. -/
theorem body_le {quote : Char} {escapes : Bool} {text : List Char} {n : Nat}
    (h : Quoted.length? quote escapes text.tail = some n) : 2 ≤ n ∧ n + 1 ≤ text.length := by
  have hPos := Quoted.length?_pos h
  have hLe := Quoted.length?_le h
  rw [List.length_tail] at hLe
  omega

theorem bits_le (d : Dialect) (quote : Char) (text : List Char) :
    (bits d quote text).length ≤ text.length := by
  unfold bits
  split
  · exact Nat.le_refl _
  · next n hn =>
    have hBody := body_le hn
    split
    · exact hBody.2
    · split <;> exact hBody.2

theorem hex_le (text : List Char) : (hex text).length ≤ text.length := by
  unfold hex
  split
  · exact Nat.le_refl _
  · next n hn =>
    have hBody := body_le hn
    split <;> exact hBody.2

theorem introduced_le {introducer : Nat} {escapes : Bool} {text : List Char}
    (h : introducer ≤ text.length) : (introduced introducer escapes text).length ≤ text.length := by
  unfold introduced
  split
  · exact Nat.le_refl _
  · next n hn =>
    have hQuoted := Quoted.length?_le hn
    rw [List.length_drop] at hQuoted
    simp only [Match.accept_length]
    omega

/-- The tag of a dollar quote and the dollar after it lie in the text. -/
theorem tagLength?_lt {text : List Char} {n : Nat} (h : tagLength? text = some n) :
    n < text.length := by
  unfold tagLength? at h
  split at h
  · cases h
    simp
  · simp only [Option.ite_none_right_eq_some, Option.some.injEq, Bool.and_eq_true,
      beq_iff_eq] at h
    obtain ⟨⟨_, hDollar⟩, rfl⟩ := h
    rw [List.head?_drop] at hDollar
    exact (List.getElem?_eq_some_iff.1 hDollar).1

theorem dollar_le {width : Nat} {text : List Char} (h : width ≤ text.length) :
    (dollar width text).length ≤ text.length := by
  unfold dollar
  split
  · next n hn =>
    have hOccurs := Text.indexOf?_le hn
    rw [List.length_take, List.length_drop, Nat.min_eq_left h] at hOccurs
    simp only [Match.accept_length]
    omega
  · exact Nat.le_refl _

end Literal

/-! ### Quoted runs and variables -/

namespace Symbol

theorem delimited_le (quote : Char) (escapes : Bool) (kind : TokenKind) (unclosed : Fault)
    (text : List Char) : (delimited quote escapes kind unclosed text).length ≤ text.length := by
  unfold delimited
  split
  · next n hn => exact Quoted.length?_le hn
  · exact Nat.le_refl _

theorem sigilLength_le {text : List Char} (h : text ≠ []) : sigilLength text ≤ text.length := by
  unfold sigilLength
  split
  · simp
  · exact List.length_pos_iff.2 h

theorem variableNameLength_le (text : List Char) : variableNameLength text ≤ text.length := by
  unfold variableNameLength
  split
  · exact Nat.le_refl 0
  · next c rest =>
    split
    · cases hn : Quoted.length? c false (c :: rest) with
      | none => exact Nat.zero_le _
      | some n => exact Quoted.length?_le hn
    · exact Text.wordRun_le _

end Symbol

end SqlTemplate
