import SqlTemplate.Proofs.Quotation

/-!
# What reading looks at

Whatever ends inside a text is not changed by what comes later.  This file says
so of the runs and searches under the recognisers, for a text `u ++ c :: t` of
which only the part after `c` is exchanged.

* `StopsAt c run`: the run ends before `c` and does not look past it.
  `Text.isStop` names the characters at which numbers, words and paths end.
* `Brackets.close?_swap`, `Text.indexOf?_swap`, `QuotePlan.ofText_swap`,
  `Region.contentLength_swap`, `Symbol.operatorRun_swap`: a search or a run that
  ends before `c` finds the same end.
-/

namespace SqlTemplate

/-! ### Runs -/

/-- The run ends before the character, whatever stands after it. -/
def StopsAt (c : Char) (run : List Char → Nat) : Prop :=
  ∀ u t, run (u ++ c :: t) ≤ u.length ∧ ∀ t', run (u ++ c :: t') = run (u ++ c :: t)

namespace StopsAt

variable {c : Char}

theorem le {run : List Char → Nat} (h : StopsAt c run) (u t : List Char) :
    run (u ++ c :: t) ≤ u.length := (h u t).1

theorem swap {run : List Char → Nat} (h : StopsAt c run) (u t t' : List Char) :
    run (u ++ c :: t') = run (u ++ c :: t) := (h u t).2 t'

/-- One run after another, where the second may depend on the length of the
first. -/
theorem seq {first : List Char → Nat} {second : Nat → List Char → Nat} (hFirst : StopsAt c first)
    (hSecond : ∀ n, StopsAt c (second n)) :
    StopsAt c fun text => first text + second (first text) (text.drop (first text)) := by
  intro u t
  have hLe := hFirst.le u t
  have hDrop : ∀ s, (u ++ c :: s).drop (first (u ++ c :: t)) =
      u.drop (first (u ++ c :: t)) ++ c :: s :=
    fun s => List.drop_append_of_le_length hLe
  refine ⟨?_, fun t' => ?_⟩
  · have hNext := (hSecond (first (u ++ c :: t))).le (u.drop (first (u ++ c :: t))) t
    rw [List.length_drop] at hNext
    simp only [hDrop]
    omega
  · simp only [hFirst.swap u t t', hDrop]
    rw [(hSecond _).swap _ t t']

end StopsAt

theorem stopsAt_takeWhile {p : Char → Bool} {c : Char} (hc : p c = false) :
    StopsAt c fun text => (text.takeWhile p).length := by
  intro u t
  have hRun : ∀ t, (u ++ c :: t).takeWhile p = u.takeWhile p :=
    fun t => Text.takeWhile_append_of_head (s := c :: t) hc u
  simp only [hRun, implies_true, and_true]
  exact Text.length_takeWhile_le p u

/-- What depends on the first character only does not see an exchange. -/
theorem head_swap {α : Type} {f : List Char → α} (hf : ∀ a s s', f (a :: s') = f (a :: s))
    (u : List Char) (c : Char) (t t' : List Char) : f (u ++ c :: t') = f (u ++ c :: t) := by
  cases u with
  | nil => exact hf c t t'
  | cons a u => exact hf a _ _

/-- A character at which numbers, words and paths end and at which no expression
starts. -/
def Text.isStop (c : Char) : Bool :=
  !Text.isWordChar c && !c.isAlphanum && !(['.', '+', '-', '\'', '"'].contains c)

namespace Text

variable {c : Char}

theorem isWordChar_of_isStop (h : isStop c = true) : isWordChar c = false := by
  simp only [isStop, Bool.and_eq_true, Bool.not_eq_true'] at h
  exact h.1.1

theorem isWordStart_of_isStop (h : isStop c = true) : isWordStart c = false := by
  cases hStart : isWordStart c with
  | false => rfl
  | true =>
    have := isWordChar_of_isWordStart hStart
    rw [isWordChar_of_isStop h] at this
    cases this

theorem isAlphanum_of_isStop (h : isStop c = true) : c.isAlphanum = false := by
  simp only [isStop, Bool.and_eq_true, Bool.not_eq_true'] at h
  exact h.1.2

theorem isDigit_of_isStop (h : isStop c = true) : c.isDigit = false := by
  have hAlphanum := isAlphanum_of_isStop h
  simp only [Char.isAlphanum, Bool.or_eq_false_iff] at hAlphanum
  exact hAlphanum.2

theorem ne_of_isStop (h : isStop c = true) :
    c ≠ '.' ∧ c ≠ '+' ∧ c ≠ '-' ∧ c ≠ '\'' ∧ c ≠ '"' ∧ c ≠ 'e' ∧ c ≠ 'E' := by
  refine ⟨?_, ?_, ?_, ?_, ?_, ?_, ?_⟩ <;>
    · rintro rfl
      revert h
      decide

end Text

/-- The code points of a table, one by one. -/
def Text.Ranges.codes (table : Text.Ranges) : List Nat :=
  table.flatMap fun range => List.range' range.1 (range.2 + 1 - range.1)

theorem Text.Ranges.mem_codes_of_covers {table : Text.Ranges} {n : Nat}
    (h : table.covers n = true) : n ∈ table.codes := by
  obtain ⟨range, hMem, hLow, hHigh⟩ := Ranges.exists_range_of_covers h
  refine List.mem_flatMap.2 ⟨range, hMem, ?_⟩
  rw [List.mem_range'_1]
  omega

/-- Every kind of whitespace ends a word. -/
theorem Text.isStop_of_isSpace {c : Char} (h : Text.isSpace c = true) : Text.isStop c = true := by
  have hBlanks : ∀ n ∈ Text.blankRanges.codes, Text.isStop (Char.ofNat n) = true := by
    decide +kernel
  simp only [Text.isSpace, Bool.or_eq_true, beq_iff_eq] at h
  rcases h with hBlank | rfl
  · have hStop := hBlanks c.toNat (Ranges.mem_codes_of_covers hBlank)
    rwa [Char.ofNat_toNat] at hStop
  · decide +kernel

theorem Number.signLength_cons (c : Char) (rest : List Char) :
    Number.signLength (c :: rest) = if c = '+' ∨ c = '-' then 1 else 0 := by
  by_cases hPlus : c = '+'
  · simp [Number.signLength, hPlus]
  · by_cases hMinus : c = '-' <;> simp [Number.signLength, hPlus, hMinus]

section Stop

variable {c : Char} (hc : Text.isStop c = true)

include hc

theorem stopsAt_wordRun : StopsAt c Text.wordRun :=
  stopsAt_takeWhile (Text.isWordChar_of_isStop hc)

theorem stopsAt_digitRun : StopsAt c Number.digitRun :=
  stopsAt_takeWhile (Text.isDigit_of_isStop hc)

theorem stopsAt_fractionLength (digits : Bool) : StopsAt c (Number.fractionLength digits) := by
  intro u t
  have hDot := (Text.ne_of_isStop hc).1
  cases u with
  | nil => simp [Number.fractionLength, hDot]
  | cons a u =>
    by_cases ha : a = '.'
    · subst ha
      have hRun := stopsAt_digitRun hc u t
      have hDigit := head_swap (f := Number.startsDigit) (fun _ _ _ => rfl) u c t
      have hName := head_swap (f := Number.startsQualified) (fun _ _ _ => rfl) u c t
      simp only [List.cons_append, Number.fractionLength, List.length_cons, hDigit, hName, hRun.2,
        implies_true, and_true]
      have := hRun.1
      split
      · omega
      · split <;> omega
    · have hZero : ∀ s, Number.fractionLength digits (a :: u ++ c :: s) = 0 := by
        intro s
        simp [Number.fractionLength, ha]
      exact ⟨by rw [hZero]; exact Nat.zero_le _, fun t' => by rw [hZero, hZero]⟩

theorem stopsAt_signLength : StopsAt c Number.signLength := by
  intro u t
  obtain ⟨_, hPlus, hMinus, _⟩ := Text.ne_of_isStop hc
  cases u with
  | nil => simp [Number.signLength_cons, hPlus, hMinus]
  | cons a u =>
    simp only [List.cons_append, Number.signLength_cons, List.length_cons]
    split <;> simp

theorem stopsAt_exponentLength : StopsAt c Number.exponentLength := by
  intro u t
  obtain ⟨_, _, _, _, _, hSmall, hCapital⟩ := Text.ne_of_isStop hc
  cases u with
  | nil => simp [Number.exponentLength, hSmall, hCapital]
  | cons a u =>
    have hTail := (stopsAt_signLength hc).seq (fun _ => stopsAt_digitRun hc) u t
    have hSign := (stopsAt_signLength hc).swap u t
    simp only [hSign, Nat.add_left_cancel_iff] at hTail
    simp only [List.cons_append, Number.exponentLength, List.length_cons, hSign, hTail.2,
      implies_true, and_true]
    have := hTail.1
    split
    · split <;> omega
    · omega

theorem stopsAt_numberLength : StopsAt c Number.length :=
  (((stopsAt_digitRun hc).seq fun n => stopsAt_fractionLength hc (0 < n)).seq
    fun _ => stopsAt_exponentLength hc)

theorem stopsAt_pathLength : StopsAt c Placeholder.pathLength := by
  intro u t
  induction u with
  | nil =>
    have hWord := Text.isWordChar_of_isStop hc
    have hDot := (Text.ne_of_isStop hc).1
    simp [Placeholder.pathLength, hWord, hDot]
  | cons a u ih =>
    have hStart : ∀ s, Text.startsWord (u ++ c :: s) = Text.startsWord (u ++ c :: t) := by
      intro s
      cases u <;> rfl
    simp only [List.cons_append, Placeholder.pathLength, List.length_cons, hStart]
    split
    · exact ⟨by omega, fun t' => by rw [ih.2 t']⟩
    · exact ⟨Nat.zero_le _, fun _ => rfl⟩

end Stop

/-! ### Marks -/

/-- A mark is seen up to `c` or not at all. -/
theorem Brackets.startsWith_swap {mark : Char × Char} {c : Char} (h : c ≠ mark.1)
    (u t t' : List Char) :
    Brackets.startsWith mark (u ++ c :: t') = Brackets.startsWith mark (u ++ c :: t) := by
  have hFirst : (c == mark.1) = false := by simpa using h
  cases u with
  | nil => cases t <;> cases t' <;> simp [Brackets.startsWith, hFirst]
  | cons a u => cases u <;> rfl

theorem Brackets.two_le_of_startsWith_append {mark : Char × Char} {c : Char} (h₁ : c ≠ mark.1)
    (h₂ : c ≠ mark.2) {u t : List Char} (h : Brackets.startsWith mark (u ++ c :: t) = true) :
    2 ≤ u.length := by
  cases u with
  | nil => cases t <;> simp [Brackets.startsWith, h₁] at h
  | cons a u =>
    cases u with
    | nil => simp [Brackets.startsWith, h₂] at h
    | cons b u => simp

/-! ### Searches -/

namespace Brackets

variable {b : Brackets}

theorem two_le_of_close? {depth : Nat} {text : List Char} {n : Nat}
    (h : b.close? depth text = some n) : 2 ≤ n := by
  fun_induction Brackets.close? b depth text generalizing n with
  | case1 depth c d rest hOpen ih =>
    obtain ⟨m, _, rfl⟩ := Option.map_eq_some_iff.1 h
    omega
  | case2 c d rest hOpen hClose =>
    cases h
    exact Nat.le_refl 2
  | case3 c d rest hOpen hClose outer ih =>
    obtain ⟨m, _, rfl⟩ := Option.map_eq_some_iff.1 h
    omega
  | case4 depth c d rest hOpen hClose ih =>
    obtain ⟨m, hm, rfl⟩ := Option.map_eq_some_iff.1 h
    have := ih hm
    omega
  | case5 => simp at h

theorem close?_cons_cons (depth : Nat) (c d : Char) (rest : List Char) :
    b.close? depth (c :: d :: rest) =
      if (c, d) = b.opener then (b.close? (depth + 1) rest).map (· + 2)
      else if (c, d) = b.closer then
        match depth with
        | 0 => some 2
        | outer + 1 => (b.close? outer rest).map (· + 2)
      else (b.close? depth (d :: rest)).map (· + 1) :=
  Brackets.close?.eq_def b depth (c :: d :: rest)

/-- **A closer found inside `u` is found whatever stands after `u`.** -/
theorem close?_swap : ∀ {u : List Char} {depth n : Nat} {t : List Char},
    b.close? depth (u ++ t) = some n → n ≤ u.length →
      ∀ t', b.close? depth (u ++ t') = some n := by
  intro u
  induction hLength : u.length using Nat.strongRecOn generalizing u with
  | ind k ih =>
    subst hLength
    intro depth n t h hn t'
    have hTwo := two_le_of_close? h
    match u, hn with
    | [], hn =>
      rw [List.length_nil] at hn
      omega
    | [_], hn =>
      rw [List.length_singleton] at hn
      omega
    | a :: e :: v, hn =>
      simp only [List.length_cons] at hn ih
      rw [List.cons_append, List.cons_append, close?_cons_cons] at h ⊢
      split at h
      · next hOpen =>
        obtain ⟨m, hm, rfl⟩ := Option.map_eq_some_iff.1 h
        rw [if_pos hOpen, ih v.length (by omega) rfl hm (by omega) t', Option.map_some]
      · next hOpen =>
        rw [if_neg hOpen]
        split at h
        · next hClose =>
          rw [if_pos hClose]
          cases depth with
          | zero => exact h
          | succ outer =>
            obtain ⟨m, hm, rfl⟩ := Option.map_eq_some_iff.1 h
            simp only [ih v.length (by omega) rfl hm (by omega) t', Option.map_some]
        · next hClose =>
          rw [if_neg hClose]
          obtain ⟨m, hm, rfl⟩ := Option.map_eq_some_iff.1 h
          rw [← List.cons_append] at hm ⊢
          rw [ih (e :: v).length (by rw [List.length_cons]; omega) rfl hm
            (by rw [List.length_cons]; omega) t', Option.map_some]

end Brackets

/-- **An occurrence inside `u` is found whatever stands after `u`.** -/
theorem Text.indexOf?_swap {pattern u t : List Char} {n : Nat}
    (h : Text.indexOf? pattern (u ++ t) = some n) (hn : n + pattern.length ≤ u.length)
    (t' : List Char) : Text.indexOf? pattern (u ++ t') = some n := by
  have hPrefix : ∀ v : List Char, pattern.length ≤ v.length →
      pattern.isPrefixOf (v ++ t') = pattern.isPrefixOf (v ++ t) := by
    intro v hv
    rw [Bool.eq_iff_iff, List.isPrefixOf_iff_prefix, List.isPrefixOf_iff_prefix]
    constructor
    · intro hp
      exact (List.prefix_of_prefix_length_le hp (List.prefix_append v t') hv).trans
        (List.prefix_append v t)
    · intro hp
      exact (List.prefix_of_prefix_length_le hp (List.prefix_append v t) hv).trans
        (List.prefix_append v t')
  induction u generalizing n with
  | nil =>
    obtain rfl : pattern = [] := List.length_eq_zero_iff.1 (by rw [List.length_nil] at hn; omega)
    obtain rfl : n = 0 := by rw [List.length_nil] at hn; omega
    cases t' <;> rfl
  | cons a u ih =>
    have hHead := hPrefix (a :: u) (by omega)
    rw [List.cons_append] at h ⊢
    rw [List.cons_append, List.cons_append] at hHead
    rw [Text.indexOf?] at h ⊢
    rw [hHead]
    split at h
    · next hFound =>
      rw [if_pos hFound]
      exact h
    · next hFound =>
      obtain ⟨m, hm, rfl⟩ := Option.map_eq_some_iff.1 h
      rw [List.length_cons] at hn
      rw [if_neg hFound, ih hm (by omega), Option.map_some]

namespace QuotePlan

variable {escapes : Bool}

theorem ofText_cons (a : Char) (rest : List Char) :
    ofText escapes (a :: rest) =
      if escapes && a == '\\' then
        match rest with
        | [] => unterminated
        | _ :: after => (ofText escapes after).shift 2
      else if a == '\'' then
        match rest with
        | [] => string 1
        | next :: after => if next == '\'' then (ofText escapes after).shift 2 else string 1
      else if a == '{' && rest.head? == some '{' then region
      else (ofText escapes rest).shift 1 :=
  ofText.eq_def escapes (a :: rest)

theorem pos_of_ofText {text : List Char} {n : Nat} (h : ofText escapes text = string n) :
    0 < n := by
  cases text with
  | nil => simp [ofText] at h
  | cons a rest =>
    rw [ofText_cons] at h
    split at h
    · cases rest with
      | nil => simp at h
      | cons b rest =>
        obtain ⟨m, _, rfl⟩ := shift_eq_string_iff.1 h
        omega
    · split at h
      · cases rest with
        | nil =>
          cases h
          exact Nat.one_pos
        | cons b rest =>
          simp only at h
          split at h
          · obtain ⟨m, _, rfl⟩ := shift_eq_string_iff.1 h
            omega
          · cases h
            exact Nat.one_pos
      · split at h
        · simp at h
        · obtain ⟨m, _, rfl⟩ := shift_eq_string_iff.1 h
          omega

/-- **A string that closes before `c` is the same string** whatever stands
after `c`. -/
theorem ofText_swap {c : Char} : ∀ {u : List Char} {n : Nat} {t : List Char},
    ofText escapes (u ++ c :: t) = string n → n ≤ u.length →
      ∀ t', ofText escapes (u ++ c :: t') = string n := by
  intro u
  induction hLength : u.length using Nat.strongRecOn generalizing u with
  | ind k ih =>
    subst hLength
    intro n t h hn t'
    have hPos := pos_of_ofText h
    cases u with
    | nil =>
      rw [List.length_nil] at hn
      omega
    | cons a u =>
      have hHead : (u ++ c :: t').head? = (u ++ c :: t).head? :=
        head_swap (fun _ _ _ => rfl) u c t t'
      rw [List.cons_append, ofText_cons] at h ⊢
      rw [List.length_cons] at hn ih
      split at h
      · next hEscape =>
        rw [if_pos hEscape]
        cases u with
        | nil =>
          obtain ⟨m, _, rfl⟩ := shift_eq_string_iff.1 h
          rw [List.length_nil] at hn
          omega
        | cons e u =>
          obtain ⟨m, hm, rfl⟩ := shift_eq_string_iff.1 h
          rw [List.length_cons] at hn ih
          rw [List.cons_append]
          exact shift_eq_string_iff.2 ⟨m, ih u.length (by omega) rfl hm (by omega) t', rfl⟩
      · next hEscape =>
        rw [if_neg hEscape]
        split at h
        · next hQuote =>
          rw [if_pos hQuote]
          cases u with
          | nil =>
            simp only [List.nil_append] at h ⊢
            split at h
            · obtain ⟨m, hm, rfl⟩ := shift_eq_string_iff.1 h
              rw [List.length_nil] at hn
              have := pos_of_ofText hm
              omega
            · next hNext =>
              rw [if_neg hNext]
              exact h
          | cons e u =>
            simp only [List.cons_append] at h ⊢
            rw [List.length_cons] at hn ih
            split at h
            · next hNext =>
              rw [if_pos hNext]
              obtain ⟨m, hm, rfl⟩ := shift_eq_string_iff.1 h
              exact shift_eq_string_iff.2 ⟨m, ih u.length (by omega) rfl hm (by omega) t', rfl⟩
            · next hNext =>
              rw [if_neg hNext]
              exact h
        · next hQuote =>
          rw [if_neg hQuote, hHead]
          split at h
          · simp at h
          · next hBrace =>
            rw [if_neg hBrace]
            obtain ⟨m, hm, rfl⟩ := shift_eq_string_iff.1 h
            exact shift_eq_string_iff.2 ⟨m, ih u.length (by omega) rfl hm (by omega) t', rfl⟩

end QuotePlan

/-! ### Text inside quoted regions -/

namespace Region

variable {escapes : Bool} {count : Nat}

theorem contentLength_cons (a : Char) (rest : List Char) :
    contentLength escapes count (a :: rest) =
      if a == '\'' then
        match rest with
        | [] => 0
        | next :: after =>
          if count == 0 && next == '\'' then contentLength escapes count after + 2 else 0
      else if escapes && a == '\\' then
        match rest with
        | [] => 1
        | _ :: after => contentLength escapes count after + 2
      else if Text.isSpace a || Placeholder.startsOpen (a :: rest) then 0
      else contentLength escapes count rest + 1 :=
  contentLength.eq_def escapes count (a :: rest)

/-- **Text that ends before `c` ends at the same place** whatever stands after
`c`, where `c` does not end it itself. -/
theorem contentLength_swap {c : Char} (hQuote : c ≠ '\'') (hSpace : Text.isSpace c = false)
    (hBrace : c ≠ '{') {t : List Char} : ∀ {u : List Char},
    contentLength escapes count (u ++ c :: t) ≤ u.length →
      ∀ t', contentLength escapes count (u ++ c :: t') =
        contentLength escapes count (u ++ c :: t) := by
  intro u
  induction hLength : u.length using Nat.strongRecOn generalizing u with
  | ind k ih =>
    subst hLength
    intro h t'
    cases u with
    | nil =>
      have hOpen : Placeholder.startsOpen (c :: t) = false := by
        cases t <;> simp [Placeholder.startsOpen, Brackets.startsWith, Brackets.placeholder, hBrace]
      rw [List.nil_append, contentLength_cons, List.length_nil] at h
      simp only [beq_iff_eq, hQuote, if_false, hSpace, hOpen, Bool.or_self, Bool.false_eq_true] at h
      split at h
      · split at h <;> omega
      · omega
    | cons a u =>
      have hOpen : Placeholder.startsOpen (a :: (u ++ c :: t')) =
          Placeholder.startsOpen (a :: (u ++ c :: t)) :=
        Brackets.startsWith_swap hBrace (a :: u) t t'
      rw [List.cons_append, contentLength_cons] at h
      rw [List.cons_append, List.cons_append, contentLength_cons, contentLength_cons]
      rw [List.length_cons] at h ih
      split at h
      · next ha =>
        rw [if_pos ha, if_pos ha]
        cases u with
        | nil => simp [hQuote]
        | cons e u =>
          simp only [List.cons_append] at h ⊢
          rw [List.length_cons] at h ih
          split at h
          · next hDouble =>
            rw [if_pos hDouble, if_pos hDouble, ih u.length (by omega) rfl (by omega) t']
          · next hDouble => rw [if_neg hDouble, if_neg hDouble]
      · next ha =>
        rw [if_neg ha, if_neg ha]
        split at h
        · next hEscape =>
          rw [if_pos hEscape, if_pos hEscape]
          cases u with
          | nil =>
            simp only [List.nil_append, List.length_nil] at h
            omega
          | cons e u =>
            simp only [List.cons_append] at h ⊢
            rw [List.length_cons] at h ih
            rw [ih u.length (by omega) rfl (by omega) t']
        · next hEscape =>
          rw [if_neg hEscape, if_neg hEscape, hOpen]
          split at h
          · next hStop => rw [if_pos hStop, if_pos hStop]
          · next hStop =>
            rw [if_neg hStop, if_neg hStop, ih u.length (by omega) rfl (by omega) t']

end Region

/-! ### Comments and operators -/

theorem Comment.startsLine_cons (d : Dialect) (a : Char) (rest : List Char) :
    Comment.startsLine d (a :: rest) =
      if a = '-' then
        rest.head? == some '-' && (!d.on .spaceAfterDashes || Comment.startsSpace rest.tail)
      else if a = '#' then d.on .hashComments
      else if a = '/' then rest.head? == some '/' && d.on .slashComments
      else false := by
  by_cases hDash : a = '-'
  · subst hDash
    cases rest with
    | nil => rfl
    | cons b rest =>
      by_cases hb : b = '-'
      · simp [Comment.startsLine, hb]
      · simp [Comment.startsLine, hb]
  · by_cases hHash : a = '#'
    · simp [Comment.startsLine, hHash]
    · by_cases hSlash : a = '/'
      · subst hSlash
        cases rest with
        | nil => rfl
        | cons b rest =>
          by_cases hb : b = '/'
          · simp [Comment.startsLine, hb]
          · simp [Comment.startsLine, hb]
      · simp [Comment.startsLine, hDash, hHash, hSlash]

/-- Whether a line comment starts does not depend on what stands after `c`. -/
theorem Comment.startsLine_swap (d : Dialect) {c : Char} (hDash : c ≠ '-') (hSlash : c ≠ '/')
    (u t t' : List Char) :
    Comment.startsLine d (u ++ c :: t') = Comment.startsLine d (u ++ c :: t) := by
  match u with
  | [] => simp [Comment.startsLine_cons, hDash, hSlash]
  | [a] =>
    have hSecond : (c == '-') = false := by simpa using hDash
    simp [Comment.startsLine_cons, hSecond]
  | a :: b :: u =>
    have hSpace : Comment.startsSpace (u ++ c :: t') = Comment.startsSpace (u ++ c :: t) :=
      head_swap (fun _ _ _ => rfl) u c t t'
    simp [Comment.startsLine_cons, hSpace]

/-- **Operator characters that end before `c` end at the same place** whatever
stands after `c`. -/
theorem Symbol.operatorRun_swap (d : Dialect) {c : Char} (hDash : c ≠ '-') (hSlash : c ≠ '/')
    {u t : List Char} (h : Symbol.operatorRun d (u ++ c :: t) ≤ u.length) (t' : List Char) :
    Symbol.operatorRun d (u ++ c :: t') = Symbol.operatorRun d (u ++ c :: t) := by
  induction u with
  | nil =>
    have hLine := Comment.startsLine_swap d hDash hSlash [] t t'
    have hBlock : Comment.startsBlock (c :: t') = Comment.startsBlock (c :: t) :=
      Brackets.startsWith_swap hSlash [] t t'
    rw [List.nil_append] at h hLine ⊢
    rw [List.nil_append] at hLine ⊢
    rw [Symbol.operatorRun] at h
    rw [Symbol.operatorRun, Symbol.operatorRun, hLine, hBlock]
    split at h
    · rw [List.length_nil] at h
      omega
    · next hStop => rw [if_neg hStop, if_neg hStop]
  | cons a u ih =>
    have hLine := Comment.startsLine_swap d hDash hSlash (a :: u) t t'
    have hBlock : Comment.startsBlock (a :: (u ++ c :: t')) =
        Comment.startsBlock (a :: (u ++ c :: t)) :=
      Brackets.startsWith_swap hSlash (a :: u) t t'
    rw [List.cons_append] at h hLine ⊢
    rw [List.cons_append] at hLine ⊢
    rw [Symbol.operatorRun] at h
    rw [Symbol.operatorRun, Symbol.operatorRun, hLine, hBlock]
    split at h
    · next hGo =>
      rw [List.length_cons] at h
      rw [if_pos hGo, if_pos hGo, ih (by omega)]
    · next hStop => rw [if_neg hStop, if_neg hStop]

end SqlTemplate
