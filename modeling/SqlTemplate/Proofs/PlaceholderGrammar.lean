import SqlTemplate.Proofs.Classification

/-!
# The grammar of placeholders

What may stand between the braces of a placeholder is said here character by character,
without the readers:

* `Number.IsDecimal`, `Placeholder.IsPath` and `Quoted.Body`: numbers, paths and the
  content of quoted strings.
* `Placeholder.Form.Derives`: an expression of one of these three forms.
* `Placeholder.Derives`: a placeholder, from its first brace to its last.

Reading is greedy and never goes back.  In front of whitespace or a brace that makes no
difference: no number, path or string goes on there, so that each reader stops where the
grammar does (`Number.length_append_eq_iff`, `Placeholder.pathLength_append_eq_iff`), and
the first character tells which of the forms it is.  The main statement is
`Placeholder.scan_eq_accept_iff`.
-/

namespace SqlTemplate

/-! ### Numbers -/

namespace Number

/-- One digit or more. -/
def IsDigits (text : List Char) : Prop := text ≠ [] ∧ ∀ c ∈ text, c.isDigit = true

/-- A dot with digits after it, or nothing. -/
inductive IsFraction : List Char → Prop
  | none : IsFraction []
  | digits {ds : List Char} : IsDigits ds → IsFraction ('.' :: ds)

/-- A mark of an exponent with digits after it, which may have a sign, or nothing. -/
inductive IsExponent : List Char → Prop
  | none : IsExponent []
  | unsigned {mark : Char} {ds : List Char} : mark = 'e' ∨ mark = 'E' → IsDigits ds →
      IsExponent (mark :: ds)
  | signed {mark sign : Char} {ds : List Char} : mark = 'e' ∨ mark = 'E' →
      sign = '+' ∨ sign = '-' → IsDigits ds → IsExponent (mark :: sign :: ds)

/-- A number in decimal that starts with a digit and does not end with its dot. -/
inductive IsDecimal : List Char → Prop
  | mk {whole fraction exponent : List Char} : IsDigits whole → IsFraction fraction →
      IsExponent exponent → IsDecimal (whole ++ (fraction ++ exponent))

theorem IsDigits.exists_head {ds : List Char} (h : IsDigits ds) :
    ∃ c rest, ds = c :: rest ∧ c.isDigit = true := by
  cases ds with
  | nil => exact absurd rfl h.1
  | cons c rest => exact ⟨c, rest, rfl, h.2 c List.mem_cons_self⟩

theorem IsDigits.startsDigit_append {ds : List Char} (h : IsDigits ds) (rest : List Char) :
    startsDigit (ds ++ rest) = true := by
  obtain ⟨c, more, rfl, hc⟩ := h.exists_head
  exact hc

theorem IsDigits.digitRun_append {ds rest : List Char} (h : IsDigits ds)
    (hRest : startsDigit rest = false) : digitRun (ds ++ rest) = ds.length := by
  rw [startsDigit_eq] at hRest
  exact congrArg List.length (Text.takeWhile_run h.2 hRest)

/-- What the run of digits at the head of a text takes, and what it leaves. -/
theorem exists_digitRun (text : List Char) :
    ∃ ds rest, text = ds ++ rest ∧ digitRun text = ds.length ∧ (∀ c ∈ ds, c.isDigit = true) ∧
      startsDigit rest = false := by
  refine ⟨text.takeWhile Char.isDigit, text.dropWhile Char.isDigit,
    List.takeWhile_append_dropWhile.symm, rfl, List.all_eq_true.1 List.all_takeWhile, ?_⟩
  rw [startsDigit_eq, ← Bool.not_eq_true, Option.any_eq_true]
  rintro ⟨c, hc, hDigit⟩
  have hNot := List.head?_dropWhile_not Char.isDigit text
  rw [hc] at hNot
  simp [hDigit] at hNot

/-- A run that starts with a digit is not empty. -/
theorem exists_isDigits {text : List Char} (h : startsDigit text = true) :
    ∃ ds rest, text = ds ++ rest ∧ digitRun text = ds.length ∧ IsDigits ds ∧
      startsDigit rest = false := by
  obtain ⟨ds, rest, rfl, hRun, hDigits, hRest⟩ := exists_digitRun text
  refine ⟨ds, rest, rfl, hRun, ⟨?_, hDigits⟩, hRest⟩
  rintro rfl
  rw [List.nil_append, hRest] at h
  cases h

/-! ### What reading a number takes -/

/-- The fraction after some digits is one of the grammar, or a dot by itself. -/
theorem exists_fraction (text : List Char) :
    ∃ fraction rest, text = fraction ++ rest ∧ fractionLength true text = fraction.length ∧
      (IsFraction fraction ∨ fraction = ['.'] ∧ startsQualified rest = false) := by
  cases text with
  | nil => exact ⟨[], [], rfl, rfl, Or.inl .none⟩
  | cons c rest =>
    by_cases hc : c = '.'
    · subst hc
      cases hDigit : startsDigit rest with
      | true =>
        obtain ⟨ds, after, rfl, hRun, hDigits, -⟩ := exists_isDigits hDigit
        refine ⟨'.' :: ds, after, rfl, ?_, Or.inl (.digits hDigits)⟩
        rw [fractionLength, if_pos hDigit, hRun, List.length_cons]
      | false =>
        cases hName : startsQualified rest with
        | true =>
          refine ⟨[], '.' :: rest, rfl, ?_, Or.inl .none⟩
          simp [fractionLength, hDigit, hName]
        | false =>
          refine ⟨['.'], rest, rfl, ?_, Or.inr ⟨rfl, hName⟩⟩
          simp [fractionLength, hDigit, hName]
    · exact ⟨[], c :: rest, rfl, fractionLength_of_ne hc true rest, Or.inl .none⟩

/-- The exponent at the head of a text has all of its digits. -/
theorem exists_exponent (text : List Char) :
    ∃ exponent rest, text = exponent ++ rest ∧ exponentLength text = exponent.length ∧
      IsExponent exponent ∧ (exponent ≠ [] → startsDigit rest = false) := by
  have hNothing : ∀ rest, exponentLength text = 0 → text = rest →
      ∃ exponent rest, text = exponent ++ rest ∧ exponentLength text = exponent.length ∧
        IsExponent exponent ∧ (exponent ≠ [] → startsDigit rest = false) :=
    fun rest hZero hText => ⟨[], rest, hText, hZero, .none, fun h => absurd rfl h⟩
  cases text with
  | nil => exact hNothing [] rfl rfl
  | cons mark rest =>
    by_cases hMark : mark = 'e' ∨ mark = 'E'
    · have hTest : (mark == 'e' || mark == 'E') = true := by simpa using hMark
      by_cases hDigits : 0 < digitRun (rest.drop (signLength rest))
      · have hLength : exponentLength (mark :: rest) =
            1 + signLength rest + digitRun (rest.drop (signLength rest)) := by
          simp only [exponentLength, hTest, if_true, if_pos hDigits]
        obtain ⟨ds, after, hText, hRun, hAll, hEnd⟩ :=
          exists_digitRun (rest.drop (signLength rest))
        rw [hRun] at hDigits hLength
        have hds : IsDigits ds := ⟨List.length_pos_iff.1 hDigits, hAll⟩
        cases rest with
        | nil =>
          rw [show ds = [] from (List.append_eq_nil_iff.1 hText.symm).1] at hDigits
          cases hDigits
        | cons sign more =>
          rw [signLength_cons] at hText hLength
          split at hText
          · next hSign =>
            rw [if_pos hSign] at hLength
            rw [List.drop_succ_cons, List.drop_zero] at hText
            subst hText
            refine ⟨mark :: sign :: ds, after, rfl, ?_, .signed hMark hSign hds, fun _ => hEnd⟩
            rw [hLength]
            simp only [List.length_cons]
            omega
          · next hSign =>
            rw [if_neg hSign] at hLength
            rw [List.drop_zero] at hText
            refine ⟨mark :: ds, after, by rw [hText]; rfl, ?_, .unsigned hMark hds, fun _ => hEnd⟩
            rw [hLength, List.length_cons]
            omega
      · refine hNothing _ ?_ rfl
        simp only [exponentLength, hTest, if_true, if_neg hDigits]
    · refine hNothing _ ?_ rfl
      have hTest : (mark == 'e' || mark == 'E') = false := by simpa using hMark
      simp only [exponentLength, hTest, Bool.false_eq_true, if_false]

/-- An exponent is read to its last digit. -/
theorem IsExponent.exponentLength_append {exponent rest : List Char} (h : IsExponent exponent)
    (hNotNil : exponent ≠ []) (hRest : startsDigit rest = false) :
    exponentLength (exponent ++ rest) = exponent.length := by
  have hTest : ∀ {mark : Char}, mark = 'e' ∨ mark = 'E' → (mark == 'e' || mark == 'E') = true := by
    intro mark hMark
    simpa using hMark
  cases h with
  | none => exact absurd rfl hNotNil
  | @unsigned mark ds hMark hds =>
    obtain ⟨d, more, rfl, hDigit⟩ := hds.exists_head
    have hSign : signLength (d :: more ++ rest) = 0 := by
      rw [List.cons_append, signLength_cons, if_neg]
      rintro (rfl | rfl) <;> cases hDigit
    have hRun := hds.digitRun_append hRest
    rw [List.cons_append, exponentLength, if_pos (hTest hMark)]
    simp only [hSign, List.drop_zero, hRun, List.length_cons]
    rw [if_pos (by omega)]
    omega
  | @signed mark sign ds hMark hSigned hds =>
    have hSign : signLength (sign :: (ds ++ rest)) = 1 := by
      rw [signLength_cons, if_pos hSigned]
    have hPos := List.length_pos_iff.2 hds.1
    have hRun := hds.digitRun_append hRest
    rw [List.cons_append, List.cons_append, exponentLength, if_pos (hTest hMark)]
    simp only [hSign, List.drop_succ_cons, List.drop_zero, hRun, List.length_cons]
    rw [if_pos hPos]
    omega

/-- No exponent follows a dot that is the last character of its number. -/
theorem exponentLength_of_startsQualified {text : List Char} (h : startsQualified text = false) :
    exponentLength text = 0 := by
  cases text with
  | nil => rfl
  | cons c rest =>
    have hAlpha : c.isAlpha = false := by
      rw [startsQualified] at h
      simp only [Bool.or_eq_false_iff] at h
      exact h.1.2
    have hMark : (c == 'e' || c == 'E') = false := by
      rw [Bool.or_eq_false_iff, beq_eq_false_iff_ne, beq_eq_false_iff_ne]
      constructor <;>
        · rintro rfl
          cases hAlpha
    simp only [exponentLength, hMark, Bool.false_eq_true, if_false]

/-- **A number that starts with a digit** is a decimal, or digits and a dot that joins
nothing. -/
theorem exists_number {text : List Char} (h : startsDigit text = true) :
    ∃ number rest, text = number ++ rest ∧ length text = number.length ∧
      (IsDecimal number ∨
        ∃ whole, IsDigits whole ∧ number = whole ++ ['.'] ∧ startsQualified rest = false) := by
  obtain ⟨whole, more, rfl, hWhole, hDigits, -⟩ := exists_isDigits h
  have hPos : 0 < whole.length := List.length_pos_iff.2 hDigits.1
  obtain ⟨fraction, tail, rfl, hFraction, hForm⟩ := exists_fraction more
  have hMantissa : mantissaLength (whole ++ (fraction ++ tail)) =
      (whole ++ fraction).length := by
    rw [mantissaLength, hWhole, List.drop_left, decide_eq_true hPos, hFraction,
      List.length_append]
  have hDrop : (whole ++ (fraction ++ tail)).drop (whole ++ fraction).length = tail := by
    rw [← List.append_assoc, List.drop_left]
  rcases hForm with hPart | ⟨rfl, hJoins⟩
  · obtain ⟨exponent, rest, rfl, hExponent, hLast, -⟩ := exists_exponent tail
    refine ⟨whole ++ (fraction ++ exponent), rest, by simp, ?_, Or.inl ⟨hDigits, hPart, hLast⟩⟩
    rw [length_eq, hMantissa, hDrop, hExponent]
    simp only [List.length_append]
    omega
  · refine ⟨whole ++ ['.'], tail, by simp, ?_, Or.inr ⟨whole, hDigits, rfl, hJoins⟩⟩
    rw [length_eq, hMantissa, hDrop, exponentLength_of_startsQualified hJoins, Nat.add_zero]

/-! ### Numbers before a stop -/

section Stop

variable {c : Char} (hc : Text.isStop c = true)

include hc

theorem startsDigit_of_isStop (t : List Char) : startsDigit (c :: t) = false :=
  Text.isDigit_of_isStop hc

/-- Before a stop, a dot reads as part of a name exactly if the stop is a brace or beyond
ASCII. -/
theorem fractionLength_dot (hBrace : c ≠ '{') (hTick : c ≠ '\x60') (t : List Char) :
    fractionLength true ('.' :: c :: t) = if c.toNat < 0x80 then 1 else 0 := by
  have hAlpha : c.isAlpha = false := by
    have hAlphanum := Text.isAlphanum_of_isStop hc
    simp only [Char.isAlphanum, Bool.or_eq_false_iff] at hAlphanum
    exact hAlphanum.1
  have hUnderscore : c ≠ '_' := by
    rintro rfl
    have hWord := Text.isWordChar_of_isStop hc
    revert hWord
    decide
  obtain ⟨hDot, -, -, -, hDouble, -⟩ := Text.ne_of_isStop hc
  have hName : startsQualified (c :: t) = decide (0x80 ≤ c.toNat) := by
    simp [startsQualified, hDot, hUnderscore, hBrace, hDouble, hTick, hAlpha]
  rw [fractionLength, startsDigit_of_isStop hc, hName]
  by_cases hAscii : c.toNat < 0x80
  · simp [hAscii]
  · simp [hAscii, Nat.not_lt.1 hAscii]

theorem exponentLength_of_isStop (t : List Char) : exponentLength (c :: t) = 0 := by
  obtain ⟨-, -, -, -, -, hSmall, hCapital⟩ := Text.ne_of_isStop hc
  simp [exponentLength, hSmall, hCapital]

theorem exponentLength_append {exponent : List Char} (h : IsExponent exponent) (t : List Char) :
    exponentLength (exponent ++ c :: t) = exponent.length := by
  by_cases hNil : exponent = []
  · rw [hNil]
    exact exponentLength_of_isStop hc t
  · exact h.exponentLength_append hNil (startsDigit_of_isStop hc t)

/-- Neither a fraction nor an exponent goes on with the digits before it. -/
theorem startsDigit_parts {fraction exponent : List Char} (hFraction : IsFraction fraction)
    (hExponent : IsExponent exponent) (t : List Char) :
    startsDigit (fraction ++ (exponent ++ c :: t)) = false := by
  cases hFraction with
  | digits _ => rfl
  | none =>
    cases hExponent with
    | none => exact startsDigit_of_isStop hc t
    | unsigned hMark _ => rcases hMark with rfl | rfl <;> rfl
    | signed hMark _ _ => rcases hMark with rfl | rfl <;> rfl

theorem fractionLength_append {fraction exponent : List Char} (hFraction : IsFraction fraction)
    (hExponent : IsExponent exponent) (t : List Char) :
    fractionLength true (fraction ++ (exponent ++ c :: t)) = fraction.length := by
  cases hFraction with
  | none =>
    have hDot : (exponent ++ c :: t).head? ≠ some '.' := by
      cases hExponent with
      | none => exact fun h => (Text.ne_of_isStop hc).1 (Option.some.inj h)
      | unsigned hMark _ => rcases hMark with rfl | rfl <;> exact fun h => by cases h
      | signed hMark _ _ => rcases hMark with rfl | rfl <;> exact fun h => by cases h
    cases hTail : exponent ++ c :: t with
    | nil => rfl
    | cons a rest =>
      rw [hTail] at hDot
      exact fractionLength_of_ne (fun ha => hDot (congrArg some ha)) true rest
  | @digits ds hds =>
    have hRest : startsDigit (exponent ++ c :: t) = false :=
      startsDigit_parts hc .none hExponent t
    rw [List.cons_append, fractionLength, if_pos (hds.startsDigit_append _),
      hds.digitRun_append hRest, List.length_cons]

/-- **A decimal before a stop is read to its end.** -/
theorem IsDecimal.length_append {number : List Char} (h : IsDecimal number) (t : List Char) :
    length (number ++ c :: t) = number.length := by
  obtain ⟨hWhole, hFraction, hExponent⟩ := h
  rename_i whole fraction exponent
  have hPos : 0 < whole.length := List.length_pos_iff.2 hWhole.1
  have hText : whole ++ (fraction ++ exponent) ++ c :: t =
      whole ++ (fraction ++ (exponent ++ c :: t)) := by
    simp only [List.append_assoc]
  have hMantissa : mantissaLength (whole ++ (fraction ++ (exponent ++ c :: t))) =
      whole.length + fraction.length := by
    rw [mantissaLength, hWhole.digitRun_append (startsDigit_parts hc hFraction hExponent t),
      List.drop_left, decide_eq_true hPos, fractionLength_append hc hFraction hExponent]
  rw [hText, length_eq, hMantissa, ← List.drop_drop, List.drop_left, List.drop_left,
    exponentLength_append hc hExponent]
  simp only [List.length_append]
  omega

/-- **What is read as a number before a stop**: a decimal, or digits and a dot if the stop is
an ASCII character. -/
theorem length_append_eq_iff (hBrace : c ≠ '{') (hTick : c ≠ '\x60') {number t : List Char} :
    startsDigit (number ++ c :: t) = true ∧ length (number ++ c :: t) = number.length ↔
      IsDecimal number ∨
        ∃ whole, IsDigits whole ∧ number = whole ++ ['.'] ∧ c.toNat < 0x80 := by
  constructor
  · rintro ⟨hStart, hLength⟩
    obtain ⟨found, rest, hText, hFound, hForm⟩ := exists_number hStart
    obtain ⟨rfl, rfl⟩ := List.append_inj hText (by rw [← hLength, hFound])
    refine hForm.imp_right ?_
    rintro ⟨whole, hDigits, hWhole, hJoins⟩
    refine ⟨whole, hDigits, hWhole, ?_⟩
    rw [startsQualified] at hJoins
    simp only [Bool.or_eq_false_iff, decide_eq_false_iff_not] at hJoins
    omega
  · rintro (hDecimal | ⟨whole, hDigits, rfl, hAscii⟩)
    · refine ⟨?_, hDecimal.length_append hc t⟩
      obtain ⟨hWhole, -, -⟩ := hDecimal
      rw [List.append_assoc]
      exact hWhole.startsDigit_append _
    · have hPos : 0 < whole.length := List.length_pos_iff.2 hDigits.1
      rw [List.append_assoc, List.singleton_append]
      refine ⟨hDigits.startsDigit_append _, ?_⟩
      have hMantissa : mantissaLength (whole ++ '.' :: c :: t) = whole.length + 1 := by
        rw [mantissaLength, hDigits.digitRun_append rfl, List.drop_left, decide_eq_true hPos,
          fractionLength_dot hc hBrace hTick, if_pos hAscii]
      rw [length_eq, hMantissa, ← List.drop_drop, List.drop_left, List.drop_succ_cons,
        List.drop_zero, exponentLength_of_isStop hc, List.length_append, List.length_singleton]

end Stop

end Number

namespace Placeholder

variable {d : Dialect}

/-! ### Paths -/

/-- Words joined by dots. -/
inductive IsPath : List Char → Prop
  | name {w : Word} : Text.isWord w = true → IsPath w
  | dot {w : Word} {path : List Char} : Text.isWord w = true → IsPath path →
      IsPath (w ++ '.' :: path)

theorem pathLength_append {w : List Char} (hw : ∀ c ∈ w, Text.isWordChar c = true)
    (rest : List Char) : pathLength (w ++ rest) = w.length + pathLength rest := by
  induction w with
  | nil => simp
  | cons c w ih =>
    have hWord : Text.isWordChar c = true := hw c List.mem_cons_self
    rw [List.cons_append, pathLength, hWord, Bool.true_or, if_pos rfl,
      ih fun a ha => hw a (List.mem_cons_of_mem c ha), List.length_cons]
    omega

theorem isWordChar_of_isWord {w : Word} (h : Text.isWord w = true) :
    ∀ c ∈ w, Text.isWordChar c = true :=
  List.all_eq_true.1 (Text.wordRun_eq_length_iff.1 (Text.isWord_iff.1 h).2)

theorem isWord_takeWhile {text : List Char} (h : Text.startsWord text = true) :
    Text.isWord (text.takeWhile Text.isWordChar) = true := by
  cases text with
  | nil => cases h
  | cons c rest =>
    have hWord : Text.isWordChar c = true := Text.isWordChar_of_isWordStart h
    rw [List.takeWhile_cons_of_pos hWord, Text.isWord, Bool.and_eq_true]
    exact ⟨h, List.all_takeWhile⟩

theorem startsWord_of_isWord {w : Word} (h : Text.isWord w = true) (rest : List Char) :
    Text.startsWord (w ++ rest) = true := by
  cases w with
  | nil => cases h
  | cons c w => exact (Bool.and_eq_true_iff.1 h).1

theorem IsPath.startsWord_append {path : List Char} (h : IsPath path) (rest : List Char) :
    Text.startsWord (path ++ rest) = true := by
  cases h with
  | name hWord => exact startsWord_of_isWord hWord rest
  | dot hWord _ =>
    rw [List.append_assoc]
    exact startsWord_of_isWord hWord _

/-- **What reading a path takes is a path.**  The induction is on the words: after each one
reading goes on only at a dot before the next one. -/
theorem exists_path {text : List Char} (h : Text.startsWord text = true) :
    ∃ path rest, text = path ++ rest ∧ IsPath path ∧ pathLength text = path.length := by
  induction hLength : text.length using Nat.strongRecOn generalizing text with
  | ind n ih =>
    subst hLength
    have hWord := isWord_takeWhile h
    have hText : text.takeWhile Text.isWordChar ++ text.dropWhile Text.isWordChar = text :=
      List.takeWhile_append_dropWhile
    have hHead := List.head?_dropWhile_not Text.isWordChar text
    generalize text.takeWhile Text.isWordChar = w at hWord hText
    generalize text.dropWhile Text.isWordChar = rest at hText hHead
    have hne : w ≠ [] := by
      rintro rfl
      cases hWord
    have hRead : pathLength text = w.length + pathLength rest := by
      rw [← hText]
      exact pathLength_append (isWordChar_of_isWord hWord) rest
    cases rest with
    | nil => exact ⟨w, [], hText.symm, .name hWord, hRead⟩
    | cons c more =>
      have hc : Text.isWordChar c = false := by simpa using hHead
      by_cases hGo : c = '.' ∧ Text.startsWord more = true
      · obtain ⟨rfl, hMore⟩ := hGo
        have hLess : more.length < text.length := by
          rw [← hText, List.length_append, List.length_cons]
          omega
        obtain ⟨path, after, rfl, hPath, hRest⟩ := ih more.length hLess hMore rfl
        refine ⟨w ++ '.' :: path, after, ?_, .dot hWord hPath, ?_⟩
        · rw [← hText, List.append_assoc, List.cons_append]
        · rw [hRead, pathLength, hMore, beq_self_eq_true, Bool.true_and, Bool.or_true, if_pos rfl,
            hRest, List.length_append, List.length_cons]
      · refine ⟨w, c :: more, hText.symm, .name hWord, ?_⟩
        have hStop : ¬(Text.isWordChar c || (c == '.' && Text.startsWord more)) = true := by
          rw [hc, Bool.false_or, Bool.and_eq_true, beq_iff_eq]
          exact hGo
        rw [hRead, pathLength, if_neg hStop, Nat.add_zero]

/-- **What is read as a path before a stop is all of a path.** -/
theorem pathLength_append_eq_iff {c : Char} (hc : Text.isStop c = true) {path t : List Char} :
    Text.startsWord (path ++ c :: t) = true ∧ pathLength (path ++ c :: t) = path.length ↔
      IsPath path := by
  constructor
  · rintro ⟨hStart, hLength⟩
    obtain ⟨found, rest, hText, hPath, hFound⟩ := exists_path hStart
    obtain ⟨rfl, -⟩ := List.append_inj hText (by rw [← hLength, hFound])
    exact hPath
  · intro h
    refine ⟨h.startsWord_append _, ?_⟩
    induction h with
    | name hWord =>
      have hStop : pathLength (c :: t) = 0 := by
        simp [pathLength, Text.isWordChar_of_isStop hc, (Text.ne_of_isStop hc).1]
      rw [pathLength_append (isWordChar_of_isWord hWord), hStop, Nat.add_zero]
    | @dot w path hWord hPath ih =>
      rw [List.append_assoc, List.cons_append, pathLength_append (isWordChar_of_isWord hWord),
        pathLength, hPath.startsWord_append, beq_self_eq_true, Bool.true_and, Bool.or_true,
        if_pos rfl, ih, List.length_append, List.length_cons]

/-! ### Reading an expression -/

theorem not_quote_of_isDigit {c : Char} (h : c.isDigit = true) :
    (c == '\'' || c == '"') = false := by
  rw [Bool.or_eq_false_iff, beq_eq_false_iff_ne, beq_eq_false_iff_ne]
  constructor <;>
    · rintro rfl
      cases h

theorem not_quote_of_isWordStart {c : Char} (h : Text.isWordStart c = true) :
    (c == '\'' || c == '"') = false := by
  rw [Bool.or_eq_false_iff, beq_eq_false_iff_ne, beq_eq_false_iff_ne]
  constructor <;>
    · rintro rfl
      revert h
      decide

theorem not_isDigit_of_isWordStart {c : Char} (h : Text.isWordStart c = true) :
    c.isDigit = false := by
  rw [← Bool.not_eq_true]
  intro hDigit
  rw [Text.isWordStart_of_isDigit hDigit] at h
  cases h

theorem expression_of_startsDigit {text : List Char} (h : Number.startsDigit text = true) :
    expression d text = .ok (Number.length text) := by
  cases text with
  | nil => cases h
  | cons a rest =>
    have ha : a.isDigit = true := h
    rw [expression, not_quote_of_isDigit ha, if_neg Bool.false_ne_true, if_pos ha]

theorem expression_of_startsWord {text : List Char} (h : Text.startsWord text = true) :
    expression d text = .ok (pathLength text) := by
  cases text with
  | nil => cases h
  | cons a rest =>
    have ha : Text.isWordStart a = true := h
    rw [expression, not_quote_of_isWordStart ha, if_neg Bool.false_ne_true,
      not_isDigit_of_isWordStart ha, if_neg Bool.false_ne_true, if_pos ha]

theorem expression_of_quote {quote : Char} {rest : List Char} {n : Nat}
    (hQuote : quote = '\'' ∨ quote = '"')
    (h : Quoted.length? quote (d.on .backslashEscapes) (quote :: rest) = some n) :
    expression d (quote :: rest) = .ok n := by
  have hTest : (quote == '\'' || quote == '"') = true := by simpa using hQuote
  rw [expression, if_pos hTest, h]

/-- **The first character of an expression tells its form**, and with it the reader that
finds its end. -/
theorem expression_ok_cases {text : List Char} {n : Nat} (h : expression d text = .ok n) :
    (∃ quote rest, text = quote :: rest ∧ (quote = '\'' ∨ quote = '"') ∧
        Quoted.length? quote (d.on .backslashEscapes) text = some n) ∨
      (Number.startsDigit text = true ∧ Number.length text = n) ∨
      (Text.startsWord text = true ∧ pathLength text = n) := by
  cases text with
  | nil => cases h
  | cons a rest =>
    rw [expression] at h
    split at h
    · next hQuote =>
      split at h
      · next m hm =>
        cases h
        exact Or.inl ⟨a, rest, rfl, by simpa using hQuote, hm⟩
      · cases h
    · split at h
      · next hDigit => exact Or.inr (Or.inl ⟨hDigit, Except.ok.inj h⟩)
      · split at h
        · next hWord => exact Or.inr (Or.inr ⟨hWord, Except.ok.inj h⟩)
        · cases h

/-! ### Expressions -/

/-- What an expression can be. -/
inductive Form where
  | quoted
  | number
  | path
deriving DecidableEq, Repr

/-- An expression of the form, in front of the rest of its placeholder.  What comes next
matters only to a number that ends with its dot: the next character has to be ASCII. -/
inductive Form.Derives (d : Dialect) (rest : List Char) : Form → List Char → Prop
  | quoted {quote : Char} {body : List Char} : quote = '\'' ∨ quote = '"' →
      Quoted.Body quote (d.on .backslashEscapes) body →
      Derives d rest .quoted (quote :: (body ++ [quote]))
  | number {text : List Char} : Number.IsDecimal text → Derives d rest .number text
  | wholeNumber {whole : List Char} {c : Char} : Number.IsDigits whole → rest.head? = some c →
      c.toNat < 0x80 → Derives d rest .number (whole ++ ['.'])
  | path {text : List Char} : IsPath text → Derives d rest .path text

theorem Form.Derives.congr {form : Form} {rest rest' inner : List Char}
    (h : form.Derives d rest inner) (hHead : rest'.head? = rest.head?) :
    form.Derives d rest' inner := by
  cases h with
  | quoted hQuote hBody => exact .quoted hQuote hBody
  | number hDecimal => exact .number hDecimal
  | wholeNumber hWhole hNext hAscii => exact .wholeNumber hWhole (hHead.trans hNext) hAscii
  | path hPath => exact .path hPath

/-- The form of the expressions that start with the character. -/
def Form.ofChar? (c : Char) : Option Form :=
  if c == '\'' || c == '"' then some quoted
  else if c.isDigit then some number
  else if Text.isWordStart c then some path
  else none

theorem Form.Derives.exists_head {form : Form} {rest inner : List Char}
    (h : form.Derives d rest inner) :
    ∃ c more, inner = c :: more ∧ Form.ofChar? c = some form := by
  have hNumber : ∀ {c : Char}, c.isDigit = true → ofChar? c = some .number := by
    intro c hc
    rw [ofChar?, not_quote_of_isDigit hc, if_neg Bool.false_ne_true, if_pos hc]
  cases h with
  | @quoted quote body hQuote _ =>
    refine ⟨quote, body ++ [quote], rfl, ?_⟩
    rw [ofChar?, if_pos (by simpa using hQuote)]
  | number hDecimal =>
    obtain ⟨hWhole, -, -⟩ := hDecimal
    obtain ⟨c, more, rfl, hc⟩ := hWhole.exists_head
    exact ⟨c, _, rfl, hNumber hc⟩
  | wholeNumber hWhole _ _ =>
    obtain ⟨c, more, rfl, hc⟩ := hWhole.exists_head
    exact ⟨c, _, rfl, hNumber hc⟩
  | path hPath =>
    have hStart := hPath.startsWord_append []
    rw [List.append_nil] at hStart
    cases inner with
    | nil => cases hStart
    | cons c more =>
      have hc : Text.isWordStart c = true := hStart
      refine ⟨c, more, rfl, ?_⟩
      rw [ofChar?, not_quote_of_isWordStart hc, if_neg Bool.false_ne_true,
        not_isDigit_of_isWordStart hc, if_neg Bool.false_ne_true, if_pos hc]

/-- **An expression has one form only**, which its first character tells. -/
theorem Form.Derives.unique {form form' : Form} {rest rest' inner : List Char}
    (h : form.Derives d rest inner) (h' : form'.Derives d rest' inner) : form = form' := by
  obtain ⟨c, more, rfl, hc⟩ := h.exists_head
  obtain ⟨c', more', hSame, hc'⟩ := h'.exists_head
  cases hSame
  exact Option.some.inj (hc.symm.trans hc')

/-- **Reading an expression before a stop** takes exactly what the grammar derives. -/
theorem expression_append_eq_iff {c : Char} (hc : Text.isStop c = true) (hBrace : c ≠ '{')
    (hTick : c ≠ '\x60') {inner t : List Char} :
    expression d (inner ++ c :: t) = .ok inner.length ↔
      ∃ form : Form, form.Derives d (c :: t) inner := by
  constructor
  · intro h
    rcases expression_ok_cases h with ⟨quote, rest, hText, hQuote, hLength⟩ | hNumber | hPath
    · obtain ⟨m, hm, hCount⟩ := Option.map_eq_some_iff.1 hLength
      obtain ⟨-, body, after, hBody, hTail, -, rfl⟩ := Quoted.exists_body_of_closing? hm
      rw [hText, List.tail_cons] at hTail
      have hWhole : inner ++ c :: t = quote :: (body ++ [quote]) ++ after := by
        rw [hText, hTail]
        simp
      obtain ⟨rfl, -⟩ := List.append_inj hWhole (by simp [← hCount])
      exact ⟨.quoted, .quoted hQuote hBody⟩
    · rcases (Number.length_append_eq_iff hc hBrace hTick).1 hNumber with
        hDecimal | ⟨whole, hWhole, rfl, hAscii⟩
      · exact ⟨.number, .number hDecimal⟩
      · exact ⟨.number, .wholeNumber hWhole rfl hAscii⟩
    · exact ⟨.path, .path ((pathLength_append_eq_iff hc).1 hPath)⟩
  · rintro ⟨form, h⟩
    obtain ⟨-, -, -, hSingle, hDouble, -⟩ := Text.ne_of_isStop hc
    cases h with
    | @quoted quote body hQuote hBody =>
      have hNext : (c :: t).head? ≠ some quote := by
        rw [List.head?_cons, ne_eq, Option.some.injEq]
        rintro rfl
        rcases hQuote with rfl | rfl
        · exact hSingle rfl
        · exact hDouble rfl
      have hSlash : quote ≠ '\\' := by
        rcases hQuote with rfl | rfl <;> decide
      have hClose := Quoted.closing?_body (fun _ => hSlash) hBody hNext
      have hText : quote :: (body ++ [quote]) ++ c :: t = quote :: (body ++ quote :: c :: t) := by
        rw [List.cons_append, List.append_assoc, List.singleton_append]
      rw [hText]
      refine expression_of_quote hQuote ?_
      rw [Quoted.length?, List.tail_cons, hClose]
      simp
    | number hDecimal =>
      obtain ⟨hDigit, hLength⟩ :=
        (Number.length_append_eq_iff hc hBrace hTick (t := t)).2 (Or.inl hDecimal)
      rw [expression_of_startsDigit hDigit, hLength]
    | @wholeNumber whole next hWhole hNext hAscii =>
      cases hNext
      obtain ⟨hDigit, hLength⟩ := (Number.length_append_eq_iff hc hBrace hTick (t := t)).2
        (Or.inr ⟨whole, hWhole, rfl, hAscii⟩)
      rw [expression_of_startsDigit hDigit, hLength]
    | path hPath =>
      obtain ⟨hStart, hLength⟩ := (pathLength_append_eq_iff hc (t := t)).2 hPath
      rw [expression_of_startsWord hStart, hLength]

/-! ### Placeholders -/

/-- A placeholder from its first brace to its last: whitespace, an expression of exactly one
form, and whitespace. -/
inductive Derives (d : Dialect) : List Char → Prop
  | mk {left inner right : List Char} : (∀ c ∈ left, Text.isSpace c = true) →
      (∀ c ∈ right, Text.isSpace c = true) →
      (∃! form : Form, form.Derives d (right ++ ['}', '}']) inner) →
      Derives d ('{' :: '{' :: (left ++ (inner ++ (right ++ ['}', '}']))))

/-- What stands after an expression in its placeholder is whitespace or a brace. -/
theorem exists_stop {right : List Char} (h : ∀ c ∈ right, Text.isSpace c = true)
    (after : List Char) :
    ∃ c t, right ++ '}' :: '}' :: after = c :: t ∧ Text.isStop c = true ∧ c ≠ '{' ∧ c ≠ '\x60' := by
  cases right with
  | nil => exact ⟨'}', '}' :: after, rfl, by decide +kernel, by decide, by decide⟩
  | cons c right =>
    have hSpace := h c List.mem_cons_self
    refine ⟨c, right ++ '}' :: '}' :: after, rfl, Text.isStop_of_isSpace hSpace, ?_, ?_⟩ <;>
      · rintro rfl
        revert hSpace
        decide

/-- A shape is a placeholder of the grammar with something after it. -/
theorem exists_shape_iff {text : List Char} {n : Nat} :
    (∃ left inner right after, Shape d text left inner right after ∧
        n = left.length + inner.length + right.length + 4) ↔
      ∃ p after, text = p ++ after ∧ p.length = n ∧ Derives d p := by
  constructor
  · rintro ⟨left, inner, right, after, ⟨rfl, hLeft, hRight, hInner⟩, rfl⟩
    obtain ⟨c, t, hNext, hStop, hBrace, hTick⟩ := exists_stop hRight after
    rw [hNext] at hInner
    obtain ⟨form, hForm⟩ := (expression_append_eq_iff hStop hBrace hTick).1 hInner
    have hHead : (right ++ ['}', '}']).head? = (c :: t).head? := by
      rw [← hNext]
      cases right <;> rfl
    refine ⟨'{' :: '{' :: (left ++ (inner ++ (right ++ ['}', '}']))), after, by simp, ?_,
      .mk hLeft hRight ⟨form, hForm.congr hHead, fun other hOther => hOther.unique hForm⟩⟩
    simp only [List.length_cons, List.length_append, List.length_nil]
    omega
  · rintro ⟨_, after, rfl, rfl, @⟨left, inner, right, hLeft, hRight, form, hForm, -⟩⟩
    obtain ⟨c, t, hNext, hStop, hBrace, hTick⟩ := exists_stop hRight after
    have hHead : (c :: t).head? = (right ++ ['}', '}']).head? := by
      rw [← hNext]
      cases right <;> rfl
    refine ⟨left, inner, right, after, ⟨by simp, hLeft, hRight, ?_⟩, ?_⟩
    · rw [hNext]
      exact (expression_append_eq_iff hStop hBrace hTick).2 ⟨form, hForm.congr hHead⟩
    · simp only [List.length_cons, List.length_append, List.length_nil]
      omega

theorem match?_eq_scan (body : List Char) :
    match? d ('{' :: '{' :: body) = some (scan d ('{' :: '{' :: body)) := rfl

/-- **A text starts with at most one placeholder of the grammar.** -/
theorem Derives.eq_of_append {p q after after' : List Char} (hp : Derives d p) (hq : Derives d q)
    (h : p ++ after = q ++ after') : p = q := by
  have hRead : ∀ {p : List Char} (rest : List Char), Derives d p →
      match? d (p ++ rest) = some (.accept .placeholder p.length) := by
    intro p rest hp
    exact match?_eq_accept_iff.2 (exists_shape_iff.2 ⟨p, rest, rfl, rfl, hp⟩)
  have hSame := (hRead after hp).symm.trans (h ▸ hRead after' hq)
  exact List.append_inj_left h (congrArg Match.length (Option.some.inj hSame))

/-- **The grammar of placeholders.**  At two braces a placeholder of `n` bytes is read exactly
if the first `n` bytes are two braces, whitespace, one expression, whitespace and two braces;
and no more than one beginning of the text is of that kind. -/
theorem scan_eq_accept_iff (d : Dialect) (body : List Char) :
    (∀ n, ((scan d ('{' :: '{' :: body)).verdict = .accept .placeholder ∧
          (scan d ('{' :: '{' :: body)).byteLength ('{' :: '{' :: body) = n) ↔
        ∃ p, p <+: '{' :: '{' :: body ∧ Text.byteLength p = n ∧ Derives d p) ∧
      ∀ p q, p <+: '{' :: '{' :: body → q <+: '{' :: '{' :: body → Derives d p → Derives d q →
        p = q := by
  have hRead : ∀ k, scan d ('{' :: '{' :: body) = .accept .placeholder k ↔
      ∃ p after, '{' :: '{' :: body = p ++ after ∧ p.length = k ∧ Derives d p := by
    intro k
    rw [← exists_shape_iff, ← match?_eq_accept_iff, match?_eq_scan, Option.some.injEq]
  refine ⟨fun n => ⟨?_, ?_⟩, ?_⟩
  · rintro ⟨hVerdict, rfl⟩
    obtain ⟨p, after, hText, hLength, hp⟩ := (hRead _).1
      (show scan d ('{' :: '{' :: body) = .accept .placeholder _ by rw [Match.accept, ← hVerdict])
    refine ⟨p, ⟨after, hText.symm⟩, ?_, hp⟩
    rw [Match.byteLength, ← hLength, hText, List.take_left]
  · rintro ⟨p, ⟨after, hText⟩, rfl, hp⟩
    have hScan := (hRead _).2 ⟨p, after, hText.symm, rfl, hp⟩
    rw [hScan]
    refine ⟨rfl, ?_⟩
    rw [Match.byteLength, Match.accept_length, ← hText, List.take_left]
  · rintro p q ⟨after, hText⟩ ⟨after', hText'⟩ hp hq
    exact hp.eq_of_append hq (hText.trans hText'.symm)

end Placeholder

end SqlTemplate
