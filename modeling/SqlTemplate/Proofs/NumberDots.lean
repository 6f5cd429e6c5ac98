import SqlTemplate.Proofs.LetterCase
import SqlTemplate.Proofs.PlaceholderGrammar
import SqlTemplate.Proofs.Recovery

/-!
# The dot after the digits of a number

A number is digits, a fraction and an exponent, each as long as it can be.  A dot without digits
after it belongs to the number unless it qualifies a name, as in `1.name` or `t1.1."x"`.  What
starts a name is a question about characters, but `Number.startsQualified` answers it for every
character beyond ASCII alike, be it a letter or not.

* `Number.Parts`: the parts of the number at the head of a text.  Every text has exactly one such
  reading (`Number.exists_parts`, `Number.Parts.unique`).
* `Number.Parts.length_eq`: it is what `Number.length` takes, but for a dot before a character
  beyond ASCII, which is left behind.

The main statement is `length_number`, with what it means for a dot before whitespace.
-/

namespace SqlTemplate

namespace Number

/-- Whether a dot before this text does not belong to a number: it qualifies a name, which may be
quoted or a placeholder, or it is the first of two dots. -/
def qualifies (text : List Char) : Bool :=
  text.head?.any fun c =>
    c == '.' || c == '{' || c == '"' || c == '\x60' || Text.isWordStart c

/-- Whether the text starts with a character beyond ASCII. -/
def startsBeyondAscii (text : List Char) : Bool := text.head?.any fun c => 0x80 ≤ c.toNat

/-- A fraction behind the digits `whole` and before `rest`. -/
inductive Fraction (whole : List Char) : List Char → List Char → Prop
  | digits {ds rest : List Char} : IsDigits ds → startsDigit rest = false →
      Fraction whole ('.' :: ds) rest
  | dot {rest : List Char} : whole ≠ [] → startsDigit rest = false → qualifies rest = false →
      Fraction whole ['.'] rest
  | none {rest : List Char} : (∀ after, rest = '.' :: after →
      startsDigit after = false ∧ (whole = [] ∨ qualifies after = true)) → Fraction whole [] rest

/-- An exponent before `rest`. -/
inductive Exponent : List Char → List Char → Prop
  | digits {exponent rest : List Char} : IsExponent exponent → exponent ≠ [] →
      startsDigit rest = false → Exponent exponent rest
  | none {rest : List Char} : (∀ exponent after, rest = exponent ++ after →
      IsExponent exponent → exponent = []) → Exponent [] rest

/-- The parts of the number at the head of a text, each with all of its digits. -/
structure Parts (text whole fraction exponent rest : List Char) : Prop where
  text_eq : text = whole ++ (fraction ++ (exponent ++ rest))
  digits : ∀ c ∈ whole, c.isDigit = true
  digits_end : startsDigit (fraction ++ (exponent ++ rest)) = false
  fraction : Fraction whole fraction (exponent ++ rest)
  exponent : Exponent exponent rest

/-! ### The test for a name -/

/-- The test takes all characters beyond ASCII for the start of a name. -/
theorem startsQualified_eq (text : List Char) :
    startsQualified text = (qualifies text || startsBeyondAscii text) := by
  cases text with
  | nil => rfl
  | cons c rest =>
    rw [startsQualified, qualifies, startsBeyondAscii, List.head?_cons, Option.any_some,
      Option.any_some, Text.isWordStart]
    by_cases hAscii : c.toNat < 0x80
    · rw [Text.isAlphabetic_of_ascii hAscii]
      simp only [Nat.not_le.2 hAscii, decide_false, Bool.or_false]
      ac_rfl
    · simp [Nat.not_lt.1 hAscii]

/-- No exponent follows where no name does. -/
theorem qualifies_of_mark {mark : Char} (h : mark = 'e' ∨ mark = 'E') (rest : List Char) :
    qualifies (mark :: rest) = true := by
  have hStart : Text.isWordStart 'e' = true ∧ Text.isWordStart 'E' = true := by decide
  rcases h with rfl | rfl
  · simp [qualifies, hStart.1]
  · simp [qualifies, hStart.2]

theorem IsExponent.qualifies_append {exponent : List Char} (h : IsExponent exponent)
    (hNotNil : exponent ≠ []) (rest : List Char) : qualifies (exponent ++ rest) = true := by
  cases h with
  | none => exact absurd rfl hNotNil
  | unsigned hMark _ => exact qualifies_of_mark hMark _
  | signed hMark _ _ => exact qualifies_of_mark hMark _

/-! ### One reading at most -/

section Unique

variable {text whole fraction exponent rest : List Char}

/-- The fraction is known from the text that it starts. -/
def fractionOf (whole : List Char) : List Char → List Char
  | '.' :: rest =>
    if startsDigit rest then '.' :: rest.takeWhile Char.isDigit
    else if whole ≠ [] ∧ qualifies rest = false then ['.']
    else []
  | _ => []

theorem Fraction.eq_fractionOf (h : Fraction whole fraction rest) :
    fraction = fractionOf whole (fraction ++ rest) := by
  cases h with
  | digits hDigits hEnd =>
    rw [startsDigit_eq] at hEnd
    rw [List.cons_append, fractionOf, if_pos (hDigits.startsDigit_append _),
      Text.takeWhile_run hDigits.2 hEnd]
  | dot hWhole hEnd hName =>
    rw [List.singleton_append, fractionOf, hEnd, if_neg Bool.false_ne_true, if_pos ⟨hWhole, hName⟩]
  | none hNone =>
    rw [List.nil_append]
    unfold fractionOf
    split
    · next after =>
      obtain ⟨hEnd, hName⟩ := hNone after rfl
      rw [hEnd, if_neg Bool.false_ne_true, if_neg]
      rintro ⟨hWhole, hFree⟩
      rcases hName with hNil | hName
      · exact hWhole hNil
      · rw [hName] at hFree
        cases hFree
    · rfl

/-- The exponent is what is read as one. -/
theorem Exponent.exponentLength_eq (h : Exponent exponent rest) :
    exponentLength (exponent ++ rest) = exponent.length := by
  cases h with
  | digits hExponent hNotNil hEnd => exact hExponent.exponentLength_append hNotNil hEnd
  | none hNone =>
    obtain ⟨found, after, rfl, hLength, hFound, -⟩ := exists_exponent rest
    rw [hNone found after rfl hFound] at hLength ⊢
    exact hLength

theorem Parts.whole_eq (h : Parts text whole fraction exponent rest) :
    whole = text.takeWhile Char.isDigit := by
  have hEnd := h.digits_end
  rw [startsDigit_eq] at hEnd
  rw [h.text_eq, Text.takeWhile_run h.digits hEnd]

/-- **A text has one reading at most.** -/
theorem Parts.unique (h : Parts text whole fraction exponent rest)
    {whole' fraction' exponent' rest' : List Char}
    (h' : Parts text whole' fraction' exponent' rest') :
    whole' = whole ∧ fraction' = fraction ∧ exponent' = exponent ∧ rest' = rest := by
  have hWhole : whole' = whole := h'.whole_eq.trans h.whole_eq.symm
  subst hWhole
  have hText := List.append_cancel_left (h'.text_eq.symm.trans h.text_eq)
  have hFraction : fraction' = fraction := by
    rw [h'.fraction.eq_fractionOf, hText, ← h.fraction.eq_fractionOf]
  subst hFraction
  have hTail := List.append_cancel_left hText
  have hExponent : exponent'.length = exponent.length := by
    rw [← h'.exponent.exponentLength_eq, hTail, h.exponent.exponentLength_eq]
  obtain ⟨rfl, rfl⟩ := List.append_inj hTail hExponent
  exact ⟨rfl, rfl, rfl, rfl⟩

end Unique

/-! ### One reading at least -/

theorem exists_fraction_of_whole (whole text : List Char) :
    ∃ fraction rest, text = fraction ++ rest ∧ Fraction whole fraction rest := by
  cases text with
  | nil => exact ⟨[], [], rfl, .none fun after h => by cases h⟩
  | cons c rest =>
    by_cases hc : c = '.'
    · subst hc
      cases hDigit : startsDigit rest with
      | true =>
        obtain ⟨ds, after, rfl, -, hDigits, hEnd⟩ := exists_isDigits hDigit
        exact ⟨'.' :: ds, after, rfl, .digits hDigits hEnd⟩
      | false =>
        by_cases hFree : whole ≠ [] ∧ qualifies rest = false
        · exact ⟨['.'], rest, rfl, .dot hFree.1 hDigit hFree.2⟩
        · refine ⟨[], '.' :: rest, rfl, .none ?_⟩
          rintro after ⟨⟩
          refine ⟨hDigit, ?_⟩
          by_cases hNil : whole = []
          · exact Or.inl hNil
          · exact Or.inr (Bool.not_eq_false _ ▸ fun hName => hFree ⟨hNil, hName⟩)
    · exact ⟨[], c :: rest, rfl, .none fun after h => absurd (List.cons.inj h).1 hc⟩

/-- More digits make a longer exponent. -/
theorem IsExponent.append_digits {exponent ds : List Char} (h : IsExponent exponent)
    (hNotNil : exponent ≠ []) (hds : ∀ c ∈ ds, c.isDigit = true) : IsExponent (exponent ++ ds) := by
  have hMore : ∀ {es : List Char}, IsDigits es → IsDigits (es ++ ds) := fun hes =>
    ⟨by simp [hes.1], fun c hc => (List.mem_append.1 hc).elim (hes.2 c) (hds c)⟩
  cases h with
  | none => exact absurd rfl hNotNil
  | unsigned hMark hDigits => exact .unsigned hMark (hMore hDigits)
  | signed hMark hSign hDigits => exact .signed hMark hSign (hMore hDigits)

theorem exists_exponent_of_rest (text : List Char) :
    ∃ exponent rest, text = exponent ++ rest ∧ Exponent exponent rest := by
  obtain ⟨exponent, rest, rfl, hLength, hExponent, hEnd⟩ := exists_exponent text
  by_cases hNil : exponent = []
  · subst hNil
    refine ⟨[], rest, rfl, .none fun other after hText hOther => ?_⟩
    by_contra hNotNil
    -- with all of its digits the other one would have been found
    obtain ⟨ds, beyond, rfl, -, hds, hBeyond⟩ := exists_digitRun after
    have hLonger := (hOther.append_digits hNotNil hds).exponentLength_append
      (by simp [hNotNil]) hBeyond
    rw [List.append_assoc, ← hText, ← List.nil_append rest, hLength, List.length_append] at hLonger
    exact hNotNil (List.length_eq_zero_iff.1 (Nat.eq_zero_of_add_eq_zero_right hLonger.symm))
  · exact ⟨exponent, rest, rfl, .digits hExponent hNil (hEnd hNil)⟩

/-- **Every text has a reading.** -/
theorem exists_parts (text : List Char) :
    ∃ whole fraction exponent rest, Parts text whole fraction exponent rest := by
  obtain ⟨whole, more, rfl, -, hDigits, hEnd⟩ := exists_digitRun text
  obtain ⟨fraction, tail, rfl, hFraction⟩ := exists_fraction_of_whole whole more
  obtain ⟨exponent, rest, rfl, hExponent⟩ := exists_exponent_of_rest tail
  exact ⟨whole, fraction, exponent, rest, rfl, hDigits, hEnd, hFraction, hExponent⟩

/-! ### What is taken -/

theorem Parts.mantissaLength_eq {text whole fraction exponent rest : List Char}
    (h : Parts text whole fraction exponent rest) :
    mantissaLength text = whole.length +
      fractionLength (0 < whole.length) (fraction ++ (exponent ++ rest)) := by
  have hEnd := h.digits_end
  rw [startsDigit_eq] at hEnd
  have hRun : digitRun text = whole.length := by
    rw [h.text_eq]
    exact congrArg List.length (Text.takeWhile_run h.digits hEnd)
  have hDrop : text.drop whole.length = fraction ++ (exponent ++ rest) := by
    rw [h.text_eq, List.drop_left]
  rw [mantissaLength, hRun, hDrop]

/-- A fraction is read to its end, but for a dot before a character beyond ASCII. -/
theorem Fraction.fractionLength_eq {whole fraction rest : List Char}
    (h : Fraction whole fraction rest) :
    fractionLength (0 < whole.length) (fraction ++ rest) =
      if fraction = ['.'] ∧ startsBeyondAscii rest = true then 0 else fraction.length := by
  cases h with
  | @digits ds _ hDigits hEnd =>
    rw [List.cons_append, fractionLength, if_pos (hDigits.startsDigit_append _),
      hDigits.digitRun_append hEnd, if_neg, List.length_cons]
    rintro ⟨hDot, -⟩
    exact hDigits.1 (List.cons.inj hDot).2
  | dot hWhole hEnd hName =>
    have hPos : 0 < whole.length := List.length_pos_iff.2 hWhole
    rw [List.singleton_append, fractionLength, hEnd, startsQualified_eq, hName, Bool.false_or]
    cases startsBeyondAscii rest with
    | true => simp
    | false => simp [hPos]
  | none hNone =>
    rw [List.nil_append, if_neg (by simp), List.length_nil]
    cases rest with
    | nil => rfl
    | cons c rest =>
      by_cases hc : c = '.'
      · subst hc
        obtain ⟨hEnd, hName⟩ := hNone rest rfl
        rw [fractionLength, hEnd, if_neg Bool.false_ne_true, if_neg]
        rw [startsQualified_eq]
        rcases hName with rfl | hName
        · simp
        · simp [hName]
      · exact fractionLength_of_ne hc _ rest

/-- No exponent follows a dot without digits. -/
theorem Parts.exponent_eq_nil {text whole exponent rest : List Char}
    (h : Parts text whole ['.'] exponent rest) : exponent = [] := by
  by_contra hNotNil
  cases h.fraction with
  | digits hDigits _ => exact hDigits.1 rfl
  | dot _ _ hName =>
    cases h.exponent with
    | digits hExponent _ _ =>
      rw [hExponent.qualifies_append hNotNil] at hName
      cases hName
    | none _ => exact hNotNil rfl

/-- **A number is read to its end**, but for a dot before a character beyond ASCII. -/
theorem Parts.length_eq {text whole fraction exponent rest : List Char}
    (h : Parts text whole fraction exponent rest) :
    length text = if fraction = ['.'] ∧ startsBeyondAscii rest = true then whole.length
      else (whole ++ (fraction ++ exponent)).length := by
  have hMantissa := h.mantissaLength_eq
  rw [h.fraction.fractionLength_eq] at hMantissa
  have hRest := h.exponent.exponentLength_eq
  by_cases hDot : fraction = ['.'] ∧ startsBeyondAscii rest = true
  · obtain ⟨rfl, hBeyond⟩ := hDot
    obtain rfl := h.exponent_eq_nil
    rw [List.nil_append, if_pos ⟨rfl, hBeyond⟩, Nat.add_zero] at hMantissa
    have hDrop : text.drop whole.length = '.' :: rest := by
      rw [h.text_eq, List.drop_left]
      rfl
    rw [if_pos ⟨rfl, hBeyond⟩, Number.length_eq, hMantissa, hDrop]
    rfl
  · have hOther : ¬(fraction = ['.'] ∧ startsBeyondAscii (exponent ++ rest) = true) := by
      rintro ⟨rfl, hBeyond⟩
      obtain rfl := h.exponent_eq_nil
      exact hDot ⟨rfl, hBeyond⟩
    have hDrop : text.drop (whole.length + fraction.length) = exponent ++ rest := by
      rw [h.text_eq, ← List.drop_drop, List.drop_left, List.drop_left]
    rw [if_neg hOther] at hMantissa
    rw [if_neg hDot, Number.length_eq, hMantissa, hDrop, hRest, List.length_append,
      List.length_append, Nat.add_assoc]

end Number

/-! ### A dot before whitespace -/

section Whitespace

variable {ds : List Char} {c : Char}

theorem Number.qualifies_of_isSpace (hc : Text.isSpace c = true) (rest : List Char) :
    qualifies (c :: rest) = false := by
  have hStop := Text.isStop_of_isSpace hc
  obtain ⟨hDot, -, -, -, hDouble, -⟩ := Text.ne_of_isStop hStop
  have hStart : Text.isWordStart c = false := by
    rw [← Bool.not_eq_true]
    intro hStart
    have hWord := Text.isWordChar_of_isWordStart hStart
    rw [Text.isWordChar_of_isStop hStop] at hWord
    cases hWord
  have hMarks : c ≠ '{' ∧ c ≠ '\x60' := by
    constructor <;>
      · rintro rfl
        exact absurd hc (by decide)
  simp [qualifies, hDot, hDouble, hStart, hMarks]

theorem Number.parts_of_space (hds : IsDigits ds) (hc : Text.isSpace c = true)
    (rest : List Char) : Parts (ds ++ '.' :: c :: rest) ds ['.'] [] (c :: rest) where
  text_eq := rfl
  digits := hds.2
  digits_end := rfl
  fraction := .dot hds.1 (startsDigit_of_isStop (Text.isStop_of_isSpace hc) rest)
    (qualifies_of_isSpace hc rest)
  exponent := by
    refine .none fun exponent after hText hExponent => ?_
    by_contra hNotNil
    have hName := hExponent.qualifies_append hNotNil after
    rw [← hText, qualifies_of_isSpace hc] at hName
    cases hName

/-- Digits with a dot before whitespace. -/
theorem Number.length_of_space (hds : IsDigits ds) (hc : Text.isSpace c = true)
    (rest : List Char) :
    Number.length (ds ++ '.' :: c :: rest) = ds.length + if c.toNat < 0x80 then 1 else 0 := by
  have hBeyond : startsBeyondAscii (c :: rest) = decide (0x80 ≤ c.toNat) := rfl
  rw [(parts_of_space hds hc rest).length_eq, hBeyond]
  by_cases hAscii : c.toNat < 0x80
  · rw [if_neg (by simp [hAscii]), if_pos hAscii]
    simp
  · rw [if_pos (by simp [Nat.not_lt.1 hAscii]), if_neg hAscii, Nat.add_zero]

/-- No literal starts with digits and a dot: a radix would be a letter. -/
theorem Literal.match?_of_digits (d : Dialect) (hds : Number.IsDigits ds) (rest : List Char) :
    Literal.match? d (ds ++ '.' :: rest) = none := by
  obtain ⟨a, more, rfl, ha⟩ := hds.exists_head
  have hMark : ∀ {x : Char}, x.isDigit = true ∨ x = '.' →
      x.toLower ∉ ['b', 'x', 'e', 'n'] := by
    rintro x (hx | rfl)
    · intro hLetter
      rw [← Text.isDigit_toLower] at hx
      simp only [List.mem_cons, List.not_mem_nil, or_false] at hLetter
      rcases hLetter with h | h | h | h <;>
        · rw [h] at hx
          cases hx
    · decide
  by_cases hZero : a = '0'
  · obtain ⟨x, after, hText, hx⟩ : ∃ x after, more ++ '.' :: rest = x :: after ∧
        (x.isDigit = true ∨ x = '.') := by
      cases more with
      | nil => exact ⟨'.', rest, rfl, Or.inr rfl⟩
      | cons x more => exact ⟨x, more ++ '.' :: rest, rfl, Or.inl (hds.2 x (by simp))⟩
    have hLetter := hMark hx
    simp only [List.mem_cons, List.not_mem_nil, or_false, not_or] at hLetter
    rw [List.cons_append, match?_cons, if_pos hZero, hText, hZero]
    simp [radix?, hLetter]
  · rw [List.cons_append]
    refine match?_eq_none ?_ (hMark (Or.inl ha)) _
    simp only [List.mem_cons, List.not_mem_nil, or_false, not_or]
    refine ⟨hZero, ?_, ?_⟩ <;>
      · rintro rfl
        revert ha
        decide

/-- In SQL text a number ends with its dot before whitespace in ASCII, and without it before other
whitespace. -/
theorem Lexeme.next_of_space {d : Dialect} (hd : d.Valid) (before : Option TokenKind)
    (hds : Number.IsDigits ds) (hc : Text.isSpace c = true) (rest : List Char) :
    Lexeme.next d before (ds ++ '.' :: c :: rest) =
      .accept .number (ds.length + if c.toNat < 0x80 then 1 else 0) := by
  have hLiteral := Literal.match?_of_digits d hds (c :: rest)
  have hLength := Number.length_of_space hds hc rest
  have hStart := hds.startsDigit_append ('.' :: c :: rest)
  obtain ⟨a, more, rfl, ha⟩ := hds.exists_head
  rw [List.cons_append] at hLiteral hLength hStart ⊢
  rw [next_of_wordChar hd (Text.isWordChar_of_isDigit ha) hLiteral, Symbol.number?, hStart,
    Bool.true_or, if_pos rfl, hLength]
  rfl

/-- The close after a text without braces is found behind it. -/
theorem Text.indexOf?_close {skipped : List Char} (h : '}' ∉ skipped) (after : List Char) :
    indexOf? ['}', '}'] (skipped ++ '}' :: '}' :: after) = some skipped.length := by
  induction skipped with
  | nil => simp [indexOf?]
  | cons a skipped ih =>
    rw [List.mem_cons, not_or] at h
    have hNot : ['}', '}'].isPrefixOf (a :: (skipped ++ '}' :: '}' :: after)) = false := by
      simp [List.isPrefixOf, h.1]
    rw [List.cons_append, indexOf?, hNot, if_neg Bool.false_ne_true, ih h.2]
    rfl

/-- Where neither whitespace nor a close stands behind the expression. -/
theorem Placeholder.scan_of_unclosed {d : Dialect} {left rest : List Char} {n : Nat}
    (hLeft : ∀ x ∈ left, Text.isSpace x = true) (hExpression : expression d rest = .ok n)
    {x : Char} {after : List Char} (hNext : rest.drop n = x :: after)
    (hSpace : Text.isSpace x = false) (hBrace : x ≠ '}') :
    scan d ('{' :: '{' :: (left ++ rest)) =
      recover ('{' :: '{' :: (left ++ rest)) (left.length + 2 + n) .expectedPlaceholderClose
        .unterminatedPlaceholder := by
  obtain ⟨a, tail, hHead, hPlain, hOther⟩ := expression_head hExpression
  have hRest : ∀ y, rest.head? = some y → Text.isSpace y = false := by
    rw [hHead]
    rintro y ⟨⟩
    exact hPlain
  have hOpen : startsOpen rest = false := by
    rw [← Bool.not_eq_true, startsOpen_iff, hHead]
    rintro ⟨_, ⟨⟩⟩
    exact hOther rfl
  obtain ⟨hStart, hDrop⟩ := expressionStart_append hLeft hRest
  have hDropMore : ('{' :: '{' :: (left ++ rest)).drop (left.length + 2 + n) = x :: after := by
    rw [← List.drop_drop, hDrop, hNext]
  have hClose : closeStart ('{' :: '{' :: (left ++ rest)) n = left.length + 2 + n := by
    rw [closeStart, hStart, hDropMore, Text.spaceRun, List.takeWhile_cons_of_neg (by simp [hSpace])]
    rfl
  rw [scan_eq, hStart, hDrop, hOpen, hExpression]
  simp only [Bool.false_eq_true, if_false]
  rw [hClose, hDropMore, if_neg (by simp [startsClose_iff, hBrace])]

/-- In a placeholder the dot before whitespace beyond ASCII stands in the place of the close. -/
theorem Placeholder.scan_of_space (d : Dialect) {left right : List Char}
    (hLeft : ∀ x ∈ left, Text.isSpace x = true) (hds : Number.IsDigits ds)
    (hc : Text.isSpace c = true) (hRight : ∀ x ∈ right, Text.isSpace x = true)
    (after : List Char) :
    scan d ('{' :: '{' :: (left ++ (ds ++ '.' :: c :: (right ++ '}' :: '}' :: after)))) =
      if c.toNat < 0x80 then .accept .placeholder (left.length + ds.length + right.length + 6)
      else .reject .expectedPlaceholderClose (left.length + ds.length + right.length + 6) := by
  have hExpression : ∀ rest, expression d (ds ++ '.' :: c :: rest) =
      .ok (ds.length + if c.toNat < 0x80 then 1 else 0) := fun rest => by
    rw [expression_of_startsDigit (hds.startsDigit_append _), Number.length_of_space hds hc]
  by_cases hAscii : c.toNat < 0x80
  · rw [if_pos hAscii]
    refine Option.some.inj ((match?_eq_scan _).symm.trans (match?_eq_accept_iff.2
      ⟨left, ds ++ ['.'], c :: right, after, ⟨?_, hLeft, ?_, ?_⟩, ?_⟩))
    · simp
    · exact List.forall_mem_cons.2 ⟨hc, hRight⟩
    · rw [List.append_assoc, List.singleton_append, List.cons_append, hExpression, if_pos hAscii,
        List.length_append, List.length_singleton]
    · simp only [List.length_append, List.length_cons, List.length_nil]
      omega
  · have hHere := hExpression (right ++ '}' :: '}' :: after)
    rw [if_neg hAscii, Nat.add_zero] at hHere
    have hPlain : ∀ x, Text.isSpace x = true → '}' ≠ x := by
      rintro x hx rfl
      revert hx
      decide
    have hSkipped : '}' ∉ '.' :: c :: right := by
      simp only [List.mem_cons, not_or]
      exact ⟨by decide, hPlain c hc, fun hMem => hPlain _ (hRight _ hMem) rfl⟩
    have hSearch := Text.indexOf?_close hSkipped after
    rw [List.cons_append, List.cons_append] at hSearch
    rw [scan_of_unclosed hLeft hHere List.drop_left (by decide) (by decide), if_neg hAscii, recover,
      ← List.drop_drop, List.drop_succ_cons, List.drop_succ_cons, List.drop_left, List.drop_left,
      hSearch]
    simp only [List.length_cons]
    congr 1
    omega

/-- **A number keeps its dot unless the dot qualifies a name**, or stands before a character
beyond ASCII.  Every text has one reading into the digits, the fraction and the exponent of a
number, and all of it is taken; but a dot before a character beyond ASCII is left, also where that
character starts no name.  So a dot before whitespace belongs to the number, in SQL text and in a
placeholder, exactly if the whitespace is in ASCII. -/
theorem length_number {d : Dialect} (hd : d.Valid) :
    (∀ text, ∃ whole fraction exponent rest,
      Number.Parts text whole fraction exponent rest ∧
        (∀ whole' fraction' exponent' rest',
          Number.Parts text whole' fraction' exponent' rest' →
            whole' = whole ∧ fraction' = fraction ∧ exponent' = exponent ∧ rest' = rest) ∧
        Number.length text =
          if fraction = ['.'] ∧ Number.startsBeyondAscii rest = true then whole.length
          else (whole ++ (fraction ++ exponent)).length) ∧
      ∀ ds c, Number.IsDigits ds → Text.isSpace c = true →
        (∀ before rest, Lexeme.next d before (ds ++ '.' :: c :: rest) =
          .accept .number (ds.length + if c.toNat < 0x80 then 1 else 0)) ∧
        ∀ left right after, (∀ x ∈ left, Text.isSpace x = true) →
          (∀ x ∈ right, Text.isSpace x = true) →
            Placeholder.scan d
                ('{' :: '{' :: (left ++ (ds ++ '.' :: c :: (right ++ '}' :: '}' :: after)))) =
              if c.toNat < 0x80 then
                .accept .placeholder (left.length + ds.length + right.length + 6)
              else
                .reject .expectedPlaceholderClose
                  (left.length + ds.length + right.length + 6) := by
  refine ⟨fun text => ?_, fun ds c hds hc => ⟨fun before rest => ?_, ?_⟩⟩
  · obtain ⟨whole, fraction, exponent, rest, hParts⟩ := Number.exists_parts text
    exact ⟨whole, fraction, exponent, rest, hParts, fun _ _ _ _ hOther => hParts.unique hOther,
      hParts.length_eq⟩
  · exact Lexeme.next_of_space hd before hds hc rest
  · intro left right after hLeft hRight
    exact Placeholder.scan_of_space d hLeft hds hc hRight after

/-- A tab is whitespace in ASCII. -/
theorem length_number_tab :
    Preset.standard.rules.Valid ∧ Number.IsDigits ['1'] ∧ Text.isSpace '\t' = true ∧
      Lexeme.next Preset.standard.rules none "1.\t".toList = .accept .number 2 ∧
      Placeholder.scan Preset.standard.rules "\x7b\x7b1.\t\x7d\x7d".toList = .accept .placeholder 7 := by
  have hd := Preset.rules_valid .standard
  have hDigits : Number.IsDigits ['1'] :=
    ⟨List.cons_ne_nil _ _, List.forall_mem_singleton.2 rfl⟩
  obtain ⟨hText, hPlaceholder⟩ := (length_number hd).2 ['1'] '\t' hDigits (by decide)
  exact ⟨hd, hDigits, by decide, hText none [], hPlaceholder [] [] [] (by simp) (by simp)⟩

/-- A space that does not break the line is whitespace, and no name starts with it; but it takes
the dot from the number before it. -/
theorem length_number_noBreakSpace :
    Text.isSpace '\u00a0' = true ∧ Text.isWordStart '\u00a0' = false ∧
      Number.Parts "1.\u00a0".toList ['1'] ['.'] [] ['\u00a0'] ∧
      Number.length "1.\u00a0".toList = 1 ∧
      (Preset.standard.rules.scan "1.\u00a0".toList).kinds = [.number, .error, .whitespace] ∧
      (Preset.standard.rules.scan "\x7b\x7b1.\u00a0\x7d\x7d".toList).kinds = [.error] := by
  refine ⟨by decide, by decide +kernel, ?_, by decide, by decide +kernel, by decide +kernel⟩
  have hDigits : Number.IsDigits ['1'] :=
    ⟨List.cons_ne_nil _ _, List.forall_mem_singleton.2 rfl⟩
  exact Number.parts_of_space hDigits (by decide) []

end Whitespace

end SqlTemplate
