import SqlTemplate.Dialect.Validity
import SqlTemplate.Proofs.Sealing

/-!
# Exchanging the text after a lexeme

A lexeme that has been read does not change when the text after it is exchanged,
as long as the new text does not go on where the lexeme ends.  `Exchange` lists
the exchanges that are made here: the text is cut off, its first character stays
and is a semicolon or an apostrophe, or a name gives way to a brace.  This file
follows an exchange through the runs and searches under the recognisers.

* `QuotePlan.Body`: the text of a string in which no placeholder opens;
  `QuotePlan.ofText_eq_string_iff` says that an apostrophe opens a string exactly
  before such a text and a closing quote.
* `takeWhile_exchange`, `Quoted.closing?_exchange`, `QuotePlan.ofText_exchange`,
  `Number.length_exchange`, `Symbol.operatorRun_exchange`: a run or a search that
  ends before the exchanged text ends at the same place after the exchange.
-/

namespace SqlTemplate

/-- A character with which a name starts: one of a word, or a quote of
identifiers. -/
def Text.isNameStart (c : Char) : Bool := Text.isWordStart c || c == '"' || c == '\x60'

/-- The text `s` after a lexeme gives way to `s'`. -/
inductive Exchange : List Char → List Char → Prop
  | cut (s : List Char) : Exchange s []
  | same {c : Char} (hc : c = ';' ∨ c = '\'') (t t' : List Char) : Exchange (c :: t) (c :: t')
  | opener {c : Char} (hc : Text.isNameStart c = true) (t t' : List Char) :
      Exchange (c :: t) ('{' :: t')

/-! ### Reserved characters -/

namespace Dialect.Valid

variable {d : Dialect} {c : Char}

theorem not_operator (hd : d.Valid) (hc : isReserved c = true) : d.isOperatorChar c = false := by
  rw [← Bool.not_eq_true, isOperatorChar, List.contains_iff_mem]
  intro hMem
  rw [hd.operator_free c hMem] at hc
  cases hc

theorem not_variable (hd : d.Valid) (hc : isReserved c = true) : d.isVariableChar c = false := by
  rw [← Bool.not_eq_true, isVariableChar, List.contains_iff_mem]
  intro hMem
  rw [hd.variable_free c hMem] at hc
  cases hc

theorem not_identifierQuote (hd : d.Valid) (hc : isReserved c = true) :
    d.isIdentifierQuote c = false := by
  rw [← Bool.not_eq_true, isIdentifierQuote, List.contains_iff_mem]
  intro hMem
  rw [hd.quote_free c hMem] at hc
  cases hc

end Dialect.Valid

/-! ### The first character of the new text -/

theorem Text.startsQualified_of_isNameStart {c : Char} (h : Text.isNameStart c = true)
    (rest : List Char) : Number.startsQualified (c :: rest) = true := by
  simp only [Text.isNameStart, Text.isWordStart, Text.isAlphabetic, Bool.or_eq_true,
    beq_iff_eq] at h
  simp only [Number.startsQualified, Bool.or_eq_true, beq_iff_eq, decide_eq_true_eq]
  split at h
  · grind
  · omega

/-- A name starts with none of the characters that end or join lexemes. -/
theorem Text.ne_of_isNameStart {c : Char} (h : Text.isNameStart c = true) :
    c ≠ '\n' ∧ c ≠ '-' ∧ c ≠ '/' ∧ c ≠ '*' ∧ c ≠ '.' ∧ Text.isSpace c = false := by
  refine ⟨?_, ?_, ?_, ?_, ?_, ?_⟩
  all_goals first
    | (rintro rfl; revert h; decide)
    | skip
  rw [← Bool.not_eq_true]
  intro hSpace
  have hStop := Text.isStop_of_isSpace hSpace
  obtain ⟨_, _, _, _, hDouble, _⟩ := Text.ne_of_isStop hStop
  have hBacktick : c ≠ '\x60' := by rintro rfl; revert hSpace; decide
  simp [Text.isNameStart, Text.isWordStart_of_isStop hStop, hDouble, hBacktick] at h

namespace Exchange

variable {s s' : List Char}

/-- What is true of the first character of the new text is true of the first
character of the old one. -/
theorem any_head (h : Exchange s s') {p : Char → Bool}
    (hp : p '{' = true → ∀ c, Text.isNameStart c = true → p c = true)
    (hHead : s'.head?.any p = true) : s.head?.any p = true := by
  cases h with
  | cut => simp at hHead
  | same => exact hHead
  | opener hc => exact hp hHead _ hc

/-- The characters with which a new text starts. -/
def heads : List Char := [';', '\'', '{']

theorem any_head_eq_false (h : Exchange s s') {p : Char → Bool} (hp : heads.any p = false) :
    s'.head?.any p = false := by
  simp only [heads, List.any_cons, List.any_nil, Bool.or_false, Bool.or_eq_false_iff] at hp
  cases h with
  | cut => rfl
  | same hc =>
    rcases hc with rfl | rfl
    · exact hp.1
    · exact hp.2.1
  | opener => exact hp.2.2

/-- Unless the text is cut off, the old text starts with none of these
characters. -/
theorem head_not_mem (h : Exchange s s') (hs' : s' ≠ []) :
    ∀ c ∈ ['\n', '-', '/', '*', '.'], s.head? ≠ some c := by
  intro c hc
  cases h with
  | cut => exact absurd rfl hs'
  | @same b hb =>
    rintro ⟨⟩
    rcases hb with rfl | rfl <;> simp at hc
  | @opener b hb =>
    rintro ⟨⟩
    obtain ⟨hLine, hDash, hSlash, hStar, hDot, _⟩ := Text.ne_of_isNameStart hb
    simp [hLine, hDash, hSlash, hStar, hDot] at hc

theorem startsSpace_eq_false (h : Exchange s s') (hs' : s' ≠ []) :
    Comment.startsSpace s = false ∧ Comment.startsSpace s' = false := by
  cases h with
  | cut => exact absurd rfl hs'
  | same hc => rcases hc with rfl | rfl <;> exact ⟨rfl, rfl⟩
  | opener hc => exact ⟨(Text.ne_of_isNameStart hc).2.2.2.2.2, rfl⟩

theorem startsQualified_eq (h : Exchange s s') (hs' : s' ≠ []) :
    Number.startsQualified s' = Number.startsQualified s := by
  cases h with
  | cut => exact absurd rfl hs'
  | same => rfl
  | opener hc => rw [Text.startsQualified_of_isNameStart hc]; rfl

/-- A quote before the exchanged text that is not doubled there is not doubled
after the exchange either. -/
theorem exists_rest (h : Exchange s s') {quote : Char} (hQuote : quote ≠ '{')
    {u body rest : List Char} (hText : u ++ s = body ++ quote :: rest)
    (hHead : rest.head? ≠ some quote) (hn : body.length + 1 ≤ u.length) :
    ∃ rest', u ++ s' = body ++ quote :: rest' ∧ rest'.head? ≠ some quote := by
  have hPrefix : body ++ [quote] <+: u := by
    refine List.prefix_of_prefix_length_le ⟨rest, ?_⟩ (List.prefix_append u s) (by simpa)
    rw [hText, List.append_assoc, List.singleton_append]
  obtain ⟨v, rfl⟩ := hPrefix
  obtain rfl : rest = v ++ s := by simpa using hText.symm
  refine ⟨v ++ s', by simp, ?_⟩
  cases v with
  | nil =>
    intro hNew
    rw [List.nil_append] at hHead hNew
    have hOld := h.any_head (p := (· == quote)) (by simp [Ne.symm hQuote]) (by simp [hNew])
    exact hHead (by simpa [Option.any_eq_true] using hOld)
  | cons a v => exact hHead

end Exchange

/-! ### Runs -/

section Runs

variable {s s' u : List Char}

/-- **A run that ends before the exchanged text** ends at the same place. -/
theorem takeWhile_exchange (hE : Exchange s s') {p : Char → Bool}
    (hp : p '{' = true → ∀ c, Text.isNameStart c = true → p c = true)
    (h : ((u ++ s).takeWhile p).length ≤ u.length) :
    (u ++ s').takeWhile p = (u ++ s).takeWhile p :=
  Text.takeWhile_append_congr (hE.any_head hp) h

/-- Where a run is followed by a certain character after the exchange, it was
followed by it before. -/
theorem run_head_exchange (hE : Exchange s s') {p : Char → Bool}
    (hp : Exchange.heads.any p = false) {c : Char} (hc : c ≠ '{')
    (h : ((u ++ s').drop ((u ++ s').takeWhile p).length).head? = some c) :
    (u ++ s).takeWhile p = (u ++ s').takeWhile p ∧
      ((u ++ s).drop ((u ++ s).takeWhile p).length).head? = some c := by
  have hNew := Text.takeWhile_append_of_head (hE.any_head_eq_false hp) u
  have hLe := Text.length_takeWhile_le p u
  rw [hNew, List.drop_append_of_le_length hLe, List.head?_append] at h
  by_cases hAll : (u.takeWhile p).length = u.length
  · -- the run takes all of `u`, and the exchange keeps the character after it
    rw [hAll, List.drop_length, List.head?_nil, Option.none_or] at h
    have hOld := hE.any_head (p := (· == c)) (fun hBrace => absurd (beq_iff_eq.1 hBrace).symm hc)
      (by simp [h])
    have hHead : s.head? = some c := by simpa [Option.any_eq_true] using hOld
    have hStop : s.head?.any p = false := by
      rw [hHead, ← h]
      exact hE.any_head_eq_false hp
    rw [hNew, Text.takeWhile_append_of_head hStop, hAll, List.drop_append_length]
    exact ⟨rfl, hHead⟩
  · have hOld : (u ++ s).takeWhile p = u.takeWhile p := by
      rw [List.takeWhile_append, if_neg hAll]
    rw [hNew, hOld, List.drop_append_of_le_length hLe, List.head?_append]
    cases hDrop : u.drop (u.takeWhile p).length with
    | nil =>
      have := List.drop_eq_nil_iff.1 hDrop
      omega
    | cons b rest =>
      rw [hDrop] at h
      exact ⟨rfl, h⟩

/-- A character that follows a run before the exchanged text still follows it. -/
theorem run_head_keep (hE : Exchange s s') {p : Char → Bool} (hp : p '{' = false)
    (h : ((u ++ s).takeWhile p).length < u.length) :
    (u ++ s').takeWhile p = (u ++ s).takeWhile p ∧
      ((u ++ s').drop ((u ++ s).takeWhile p).length).head? =
        ((u ++ s).drop ((u ++ s).takeWhile p).length).head? := by
  refine ⟨takeWhile_exchange hE (fun hBrace => ?_) (Nat.le_of_lt h), ?_⟩
  · rw [hp] at hBrace
    cases hBrace
  · rw [List.drop_append_of_le_length (Nat.le_of_lt h),
      List.drop_append_of_le_length (Nat.le_of_lt h)]
    cases hDrop : u.drop ((u ++ s).takeWhile p).length with
    | nil =>
      have := List.drop_eq_nil_iff.1 hDrop
      omega
    | cons b rest => rfl

end Runs

/-! ### Quoted runs and strings -/

namespace Quoted

variable {s s' : List Char} {quote : Char} {escapes : Bool}

/-- **A quoted run that closes before the exchanged text** closes at the same
place. -/
theorem closing?_exchange (hE : Exchange s s') (hQuote : quote ≠ '{') {u : List Char} {n : Nat}
    (h : closing? quote escapes (u ++ s) = some n) (hn : n ≤ u.length) :
    closing? quote escapes (u ++ s') = some n := by
  obtain ⟨hSlash, body, rest, hBody, hText, hHead, rfl⟩ := exists_body_of_closing? h
  obtain ⟨rest', hNew, hHead'⟩ := hE.exists_rest hQuote hText hHead hn
  rw [hNew]
  exact closing?_body hSlash hBody hHead'

theorem length?_exchange (hE : Exchange s s') (hQuote : quote ≠ '{') {u : List Char} {n : Nat}
    (hu : u ≠ []) (h : length? quote escapes (u ++ s) = some n) (hn : n ≤ u.length) :
    length? quote escapes (u ++ s') = some n := by
  obtain ⟨a, v, rfl⟩ := List.exists_cons_of_ne_nil hu
  obtain ⟨k, hk, rfl⟩ := Option.map_eq_some_iff.1 h
  rw [length?, List.cons_append, List.tail_cons,
    closing?_exchange hE hQuote hk (Nat.le_of_succ_le_succ hn), Option.map_some]

end Quoted

namespace QuotePlan

/-- The text between the quotes of a string: it holds no apostrophe that is not
doubled or escaped, and no placeholder opens in it. -/
inductive Body (escapes : Bool) : List Char → Prop
  | nil : Body escapes []
  | doubled {body : List Char} : Body escapes body → Body escapes ('\'' :: '\'' :: body)
  | escaped {c : Char} {body : List Char} : escapes = true → Body escapes body →
      Body escapes ('\\' :: c :: body)
  | plain {c : Char} {body : List Char} : c ≠ '\'' → (escapes = true → c ≠ '\\') →
      (c = '{' → body.head? ≠ some '{') → Body escapes body → Body escapes (c :: body)

variable {escapes : Bool}

/-- The text of a string is the body of a quoted run. -/
theorem Body.quoted {body : List Char} (h : Body escapes body) :
    Quoted.Body '\'' escapes body := by
  induction h with
  | nil => exact .nil
  | doubled _ ih => exact .doubled ih
  | escaped hOn _ ih => exact .escaped hOn ih
  | plain hQuote hEscape _ _ ih => exact .plain hQuote hEscape ih

theorem exists_body_of_ofText {text : List Char} {n : Nat} (h : ofText escapes text = string n) :
    ∃ body rest, Body escapes body ∧ text = body ++ '\'' :: rest ∧
      rest.head? ≠ some '\'' ∧ n = body.length + 1 := by
  fun_induction ofText escapes text generalizing n with
  | case1 => cases h
  | case2 => cases h
  | case3 c hEscape next after ih =>
    obtain ⟨m, hm, rfl⟩ := shift_eq_string_iff.1 h
    obtain ⟨body, rest, hBody, rfl, hHead, rfl⟩ := ih hm
    simp only [Bool.and_eq_true, beq_iff_eq] at hEscape
    obtain ⟨hOn, rfl⟩ := hEscape
    exact ⟨'\\' :: next :: body, rest, .escaped hOn hBody, rfl, hHead, rfl⟩
  | case4 c hEscape hQuote =>
    cases h
    rw [beq_iff_eq] at hQuote
    subst hQuote
    exact ⟨[], [], .nil, rfl, by simp, rfl⟩
  | case5 c hEscape hQuote next after hNext ih =>
    obtain ⟨m, hm, rfl⟩ := shift_eq_string_iff.1 h
    obtain ⟨body, rest, hBody, rfl, hHead, rfl⟩ := ih hm
    rw [beq_iff_eq] at hQuote hNext
    subst hQuote hNext
    exact ⟨_, rest, .doubled hBody, rfl, hHead, rfl⟩
  | case6 c hEscape hQuote next after hNext =>
    cases h
    rw [beq_iff_eq] at hQuote hNext
    subst hQuote
    exact ⟨[], next :: after, .nil, rfl, by simpa using hNext, rfl⟩
  | case7 => cases h
  | case8 c rest hEscape hQuote hBrace ih =>
    obtain ⟨m, hm, rfl⟩ := shift_eq_string_iff.1 h
    obtain ⟨body, after, hBody, rfl, hHead, rfl⟩ := ih hm
    simp only [Bool.and_eq_true, beq_iff_eq, not_and] at hEscape hQuote hBrace
    refine ⟨c :: body, after, .plain hQuote hEscape ?_ hBody, rfl, hHead, rfl⟩
    intro hc hNext
    refine hBrace hc ?_
    rw [List.head?_append, hNext, Option.some_or]

/-- The apostrophe after such a text closes the string. -/
theorem ofText_body {body rest : List Char} (hBody : Body escapes body)
    (hHead : rest.head? ≠ some '\'') :
    ofText escapes (body ++ '\'' :: rest) = string (body.length + 1) := by
  induction hBody with
  | nil =>
    cases rest with
    | nil => simp [ofText]
    | cons c rest =>
      have hc : c ≠ '\'' := by simpa using hHead
      simp [ofText, hc]
  | doubled _ ih => simp [ofText, ih, shift]
  | escaped hOn _ ih =>
    subst hOn
    simp [ofText, ih, shift]
  | @plain c body hQuote hEscape hBrace _ ih =>
    have hPlain : (escapes && c == '\\') = false := by
      simpa [Bool.and_eq_false_imp] using hEscape
    have hOpen : (c == '{' && (body ++ '\'' :: rest).head? == some '{') = false := by
      rw [← Bool.not_eq_true, Bool.and_eq_true, beq_iff_eq, beq_iff_eq]
      rintro ⟨rfl, hNext⟩
      cases body with
      | nil => simp at hNext
      | cons b body => exact hBrace rfl hNext
    rw [List.cons_append, ofText_cons, hPlain, hOpen, ih]
    simp [hQuote, shift]

/-- **An apostrophe opens a string exactly before the text of a string** and an
apostrophe that is not doubled. -/
theorem ofText_eq_string_iff {text : List Char} {n : Nat} :
    ofText escapes text = string n ↔
      ∃ body rest, Body escapes body ∧ text = body ++ '\'' :: rest ∧
        rest.head? ≠ some '\'' ∧ n = body.length + 1 := by
  constructor
  · exact exists_body_of_ofText
  · rintro ⟨body, rest, hBody, rfl, hHead, rfl⟩
    exact ofText_body hBody hHead

/-- **A string that closes before the exchanged text** is the same string. -/
theorem ofText_exchange {s s' : List Char} (hE : Exchange s s') {u : List Char} {n : Nat}
    (h : ofText escapes (u ++ s) = string n) (hn : n ≤ u.length) :
    ofText escapes (u ++ s') = string n := by
  obtain ⟨body, rest, hBody, hText, hHead, rfl⟩ := exists_body_of_ofText h
  obtain ⟨rest', hNew, hHead'⟩ := hE.exists_rest (by decide) hText hHead hn
  rw [hNew]
  exact ofText_body hBody hHead'

end QuotePlan

/-! ### Numbers -/

namespace Number

variable {s s' : List Char}

theorem startsDigit_eq (text : List Char) : startsDigit text = text.head?.any Char.isDigit := by
  cases text <;> rfl

/-- The new text starts with no digit, so that a text starts with one only if it
did before. -/
theorem startsDigit_exchange (hE : Exchange s s') (u : List Char)
    (h : startsDigit (u ++ s') = true) :
    u ≠ [] ∧ startsDigit (u ++ s) = true := by
  cases u with
  | nil =>
    rw [List.nil_append, startsDigit_eq, hE.any_head_eq_false (by decide)] at h
    cases h
  | cons a u => exact ⟨List.cons_ne_nil a u, h⟩

theorem digitRun_exchange (hE : Exchange s s') {u : List Char}
    (h : digitRun (u ++ s) ≤ u.length) : digitRun (u ++ s') = digitRun (u ++ s) := by
  rw [digitRun, takeWhile_exchange hE (fun hBrace => absurd hBrace (by decide)) h, digitRun]

theorem fractionLength_of_ne {a : Char} (ha : a ≠ '.') (digits : Bool) (rest : List Char) :
    fractionLength digits (a :: rest) = 0 := by
  simp [fractionLength, ha]

/-- A dot that ends the text before an exchange belongs to the number or not, as
it did before. -/
theorem fractionLength_dot_exchange (hE : Exchange s s') {digits : Bool}
    (h : fractionLength digits ('.' :: s) ≤ 1)
    (hCut : s' = [] → fractionLength digits ('.' :: s) ≠ 0) :
    fractionLength digits ('.' :: s') = fractionLength digits ('.' :: s) := by
  have hOld : startsDigit s = false := by
    cases hDigit : startsDigit s with
    | false => rfl
    | true =>
      have := digitRun_pos hDigit
      simp only [fractionLength, hDigit, if_true] at h
      omega
  have hNew : startsDigit s' = false := by
    rw [startsDigit_eq, hE.any_head_eq_false (by decide)]
  by_cases hs' : s' = []
  · have hOne := hCut hs'
    subst hs'
    simp only [fractionLength, hOld, hNew, Bool.false_eq_true, if_false] at hOne ⊢
    split at hOne
    · next hOpen =>
      have hDigits : digits = true := (Bool.and_eq_true _ _ ▸ hOpen).1
      rw [if_pos hOpen, hDigits]
      rfl
    · exact absurd rfl hOne
  · simp only [fractionLength, hOld, hNew, Bool.false_eq_true, if_false,
      hE.startsQualified_eq hs']

theorem fractionLength_exchange (hE : Exchange s s') {digits : Bool} {w : List Char}
    (h : fractionLength digits (w ++ s) ≤ w.length)
    (hCut : s' = [] → w.head? = some '.' → fractionLength digits (w ++ s) ≠ 0) :
    fractionLength digits (w ++ s') = fractionLength digits (w ++ s) := by
  match w with
  | [] =>
    rw [List.nil_append, List.length_nil, Nat.le_zero] at h
    rw [List.nil_append, List.nil_append, h]
    cases hE with
    | cut => rfl
    | same hc => exact fractionLength_of_ne (by rcases hc with rfl | rfl <;> decide) _ _
    | opener => exact fractionLength_of_ne (by decide) _ _
  | a :: v =>
    by_cases ha : a = '.'
    · subst ha
      match v with
      | [] => exact fractionLength_dot_exchange hE h fun hs' => hCut hs' rfl
      | b :: v =>
        simp only [List.cons_append, fractionLength, List.length_cons] at h ⊢
        by_cases hDigit : startsDigit (b :: (v ++ s)) = true
        · have hDigit' : startsDigit (b :: (v ++ s')) = true := hDigit
          rw [if_pos hDigit] at h
          have hRun : digitRun (b :: (v ++ s')) = digitRun (b :: (v ++ s)) :=
            digitRun_exchange (u := b :: v) hE (Nat.le_of_succ_le_succ h)
          rw [if_pos hDigit, if_pos hDigit', hRun]
        · have hDigit' : ¬startsDigit (b :: (v ++ s')) = true := hDigit
          rw [if_neg hDigit, if_neg hDigit']
          rfl
    · rw [List.cons_append, List.cons_append, fractionLength_of_ne ha, fractionLength_of_ne ha]

theorem exponentLength_exchange (hE : Exchange s s') {w : List Char}
    (h : exponentLength (w ++ s) ≤ w.length) :
    exponentLength (w ++ s') = exponentLength (w ++ s) := by
  cases w with
  | nil =>
    rw [List.nil_append, List.length_nil, Nat.le_zero] at h
    rw [List.nil_append, List.nil_append, h]
    cases hE with
    | cut => rfl
    | same hc => rcases hc with rfl | rfl <;> rfl
    | opener => rfl
  | cons a v =>
    simp only [List.cons_append, exponentLength, List.length_cons] at h ⊢
    split at h
    · next hLetter =>
      simp only [hLetter, if_true]
      cases v with
      | nil =>
        -- a sign or a digit after the letter would lie in the exchanged text
        have hOld : digitRun (s.drop (signLength s)) = 0 := by
          simp only [List.nil_append, List.length_nil] at h
          split at h <;> omega
        have hNew : signLength s' = 0 ∧ digitRun s' = 0 := by
          cases hE with
          | cut => exact ⟨rfl, rfl⟩
          | same hc => rcases hc with rfl | rfl <;> exact ⟨rfl, rfl⟩
          | opener => exact ⟨rfl, rfl⟩
        simp [hOld, hNew.1, hNew.2]
      | cons b v =>
        have hSign : ∀ t, signLength (b :: v ++ t) = signLength (b :: v) := by
          intro t
          simp only [List.cons_append, signLength]
          split <;> simp_all
        have hLe := signLength_le (b :: v)
        simp only [hSign, List.drop_append_of_le_length hLe] at h ⊢
        have hRun : digitRun ((b :: v).drop (signLength (b :: v)) ++ s') =
            digitRun ((b :: v).drop (signLength (b :: v)) ++ s) := by
          refine digitRun_exchange hE ?_
          rw [List.length_drop]
          split at h <;> omega
        rw [hRun]
    · next hLetter => rw [if_neg hLetter, if_neg hLetter]

/-- **A number that ends before the exchanged text** ends at the same place.
Where the text is cut off, it has to be cut off right after the number. -/
theorem length_exchange (hE : Exchange s s') {u : List Char} (h : length (u ++ s) ≤ u.length)
    (hCut : s' = [] → length (u ++ s) = u.length) : length (u ++ s') = length (u ++ s) := by
  have hEq := length_eq (u ++ s)
  have hMantissa : mantissaLength (u ++ s) = digitRun (u ++ s) +
      fractionLength (0 < digitRun (u ++ s)) ((u ++ s).drop (digitRun (u ++ s))) := rfl
  have hWholeLe : digitRun (u ++ s) ≤ u.length := by omega
  have hDrop : ∀ t, (u ++ t).drop (digitRun (u ++ s)) = u.drop (digitRun (u ++ s)) ++ t :=
    fun t => List.drop_append_of_le_length hWholeLe
  have hWhole : digitRun (u ++ s') = digitRun (u ++ s) := digitRun_exchange hE hWholeLe
  have hFraction : fractionLength (0 < digitRun (u ++ s)) (u.drop (digitRun (u ++ s)) ++ s') =
      fractionLength (0 < digitRun (u ++ s)) (u.drop (digitRun (u ++ s)) ++ s) := by
    rw [hDrop] at hMantissa
    refine fractionLength_exchange hE (by rw [List.length_drop]; omega) ?_
    -- a dot that is no part of the number would stand between the number and the cut
    intro hs' hDot hZero
    obtain ⟨rest, hRest⟩ := List.head?_eq_some_iff.1 hDot
    rw [hMantissa, hZero, Nat.add_zero, hDrop, hRest] at hEq
    have hLength := congrArg List.length hRest
    rw [List.length_drop, List.length_cons] at hLength
    have hNone : exponentLength ('.' :: rest ++ s) = 0 := rfl
    have := hCut hs'
    omega
  have hSame : mantissaLength (u ++ s') = mantissaLength (u ++ s) := by
    rw [hMantissa, mantissaLength, hWhole, hDrop, hDrop, hFraction]
  have hMantissaLe : mantissaLength (u ++ s) ≤ u.length := by omega
  have hExponent := exponentLength_exchange hE (w := u.drop (mantissaLength (u ++ s)))
  rw [← List.drop_append_of_le_length hMantissaLe, ← List.drop_append_of_le_length hMantissaLe,
    List.length_drop] at hExponent
  rw [hEq, length_eq, hSame, hExponent (by omega)]

end Number

/-! ### Marks, comments and operators -/

/-- A mark that starts before the exchanged text and is there after the exchange
was there before. -/
theorem Brackets.startsWith_exchange {mark : Char × Char} {s s' w : List Char} (hw : w ≠ [])
    (hSecond : s'.head? = some mark.2 → w ≠ [mark.1])
    (h : Brackets.startsWith mark (w ++ s') = true) : Brackets.startsWith mark (w ++ s) = true := by
  match w with
  | [] => exact absurd rfl hw
  | [a] =>
    cases s' with
    | nil => cases h
    | cons b t =>
      simp only [List.cons_append, List.nil_append, Brackets.startsWith, Bool.and_eq_true,
        beq_iff_eq] at h
      exact absurd (congrArg (fun c => [c]) h.1) (hSecond (congrArg some h.2))
  | a :: b :: w => exact h

namespace Comment

variable {s s' : List Char} (d : Dialect)

theorem startsBlock_exchange (hE : Exchange s s') {w : List Char} (hw : w ≠ [])
    (h : startsBlock (w ++ s') = true) : startsBlock (w ++ s) = true := by
  refine Brackets.startsWith_exchange hw (fun hHead => ?_) h
  have hNone := hE.any_head_eq_false (p := (· == '*')) (by decide)
  rw [hHead] at hNone
  cases hNone

/-- Unless the text is cut off, the same block comments start before it. -/
theorem startsBlock_exchange_eq (hE : Exchange s s') (hs' : s' ≠ []) {w : List Char}
    (hw : w ≠ []) : startsBlock (w ++ s') = startsBlock (w ++ s) := by
  rw [Bool.eq_iff_iff]
  refine ⟨startsBlock_exchange hE hw, Brackets.startsWith_exchange hw fun hHead => ?_⟩
  exact absurd hHead (hE.head_not_mem hs' '*' (by simp))

/-- Unless the text is cut off, the same line comments start before it. -/
theorem startsLine_exchange_eq (hE : Exchange s s') (hs' : s' ≠ []) {w : List Char} (hw : w ≠ []) :
    startsLine d (w ++ s') = startsLine d (w ++ s) := by
  obtain ⟨hSpace, hSpace'⟩ := hE.startsSpace_eq_false hs'
  have hOld : ∀ c ∈ ['-', '/'], (s.head? == some c) = false := by
    intro c hc
    have hNot := hE.head_not_mem hs' c
    simp only [List.mem_cons, List.not_mem_nil, or_false] at hc hNot
    simpa using hNot (by grind)
  have hNew : ∀ c ∈ ['-', '/'], (s'.head? == some c) = false := by
    intro c hc
    have hNone := hE.any_head_eq_false (p := (· == c)) (by
      simp only [List.mem_cons, List.not_mem_nil, or_false] at hc
      rcases hc with rfl | rfl <;> decide)
    cases s' with
    | nil => rfl
    | cons b t => simpa using hNone
  match w with
  | [] => exact absurd rfl hw
  | [a] =>
    simp only [List.cons_append, List.nil_append, startsLine_cons, hOld '-' (by simp),
      hOld '/' (by simp), hNew '-' (by simp), hNew '/' (by simp), Bool.false_and]
  | [a, b] =>
    simp only [List.cons_append, List.nil_append, startsLine_cons, List.head?_cons,
      List.tail_cons, hSpace, hSpace']
  | a :: b :: c :: w => simp [startsLine_cons, startsSpace]

/-- Cutting a text starts no line comment, unless it is cut off after two
dashes. -/
theorem startsLine_cut {w : List Char} (hw : w ≠ ['-', '-']) (h : startsLine d w = true)
    (s : List Char) : startsLine d (w ++ s) = true := by
  match w with
  | [] => cases h
  | [a] =>
    rw [List.cons_append, List.nil_append, startsLine_cons]
    rw [startsLine_cons] at h
    by_cases hDash : a = '-'
    · simp [hDash] at h
    · by_cases hHash : a = '#'
      · simpa [hHash] using h
      · by_cases hSlash : a = '/' <;> simp [hDash, hHash, hSlash] at h
  | [a, b] =>
    have hNot : ¬(a = '-' ∧ b = '-') := by
      rintro ⟨rfl, rfl⟩
      exact hw rfl
    simp only [List.cons_append, List.nil_append, startsLine_cons, List.head?_cons] at h ⊢
    by_cases hDash : a = '-'
    · simp_all
    · simpa [hDash] using h
  | a :: b :: c :: w => simpa [startsLine_cons, startsSpace] using h

theorem startsLine_exchange (hE : Exchange s s') {w : List Char} (hw : w ≠ [])
    (hDashes : s' = [] → w ≠ ['-', '-']) (h : startsLine d (w ++ s') = true) :
    startsLine d (w ++ s) = true := by
  by_cases hs' : s' = []
  · subst hs'
    rw [List.append_nil] at h
    exact startsLine_cut d (hDashes rfl) h s
  · rwa [← startsLine_exchange_eq d hE hs' hw]

/-- A line comment that ends before the exchanged text still starts. -/
theorem startsLine_of_run (hE : Exchange s s') {w : List Char} (hw : w ≠ [])
    (h : startsLine d (w ++ s) = true)
    (hRun : ((w ++ s).takeWhile (· != '\n')).length ≤ w.length) :
    startsLine d (w ++ s') = true := by
  by_cases hs' : s' = []
  · subst hs'
    rw [List.append_nil]
    match w with
    | [] => exact absurd rfl hw
    | [a] =>
      have hHead : ∀ c, c ≠ '\n' → a ≠ '\n' → s.head? ≠ some c := by
        rintro c hc ha hs
        obtain ⟨t, rfl⟩ := List.head?_eq_some_iff.1 hs
        simp [ha, hc] at hRun
      simp only [List.cons_append, List.nil_append, startsLine_cons] at h ⊢
      by_cases hDash : a = '-'
      · have := hHead '-' (by decide) (by simp [hDash])
        simp [hDash, this] at h
      · by_cases hHash : a = '#'
        · simpa [hHash] using h
        · by_cases hSlash : a = '/'
          · have := hHead '/' (by decide) (by simp [hSlash])
            simp [hSlash, this] at h
          · simp [hDash, hHash, hSlash] at h
    | [a, b] =>
      simp only [List.cons_append, List.nil_append, startsLine_cons, List.head?_cons,
        List.tail_cons, startsSpace, Bool.or_true, Bool.and_true] at h ⊢
      by_cases hDash : a = '-'
      · simp_all
      · simpa [hDash] using h
    | a :: b :: c :: w => simpa [startsLine_cons, startsSpace] using h
  · rwa [startsLine_exchange_eq d hE hs' hw]

end Comment

namespace Symbol

variable {s s' : List Char} {d : Dialect}

/-- **Operator characters that end before the exchanged text** end at the same
place.  Where the text is cut off, it has to be cut off right after them, and
not after two dashes. -/
theorem operatorRun_exchange (hE : Exchange s s') (hd : d.Valid) {v : List Char}
    (h : operatorRun d (v ++ s) ≤ v.length)
    (hCut : s' = [] → operatorRun d (v ++ s) = v.length ∧ ¬['-', '-'] <:+ v) :
    operatorRun d (v ++ s') = operatorRun d (v ++ s) := by
  induction v with
  | nil =>
    have hReserved : Exchange.heads.all Dialect.isReserved = true := by decide
    have hFree : Exchange.heads.any d.isOperatorChar = false := by
      rw [List.any_eq_false]
      intro c hc
      rw [hd.not_operator (List.all_eq_true.1 hReserved c hc)]
      exact Bool.false_ne_true
    have hNone := hE.any_head_eq_false hFree
    rw [List.nil_append, List.length_nil, Nat.le_zero] at h
    rw [List.nil_append, List.nil_append, h]
    cases s' with
    | nil => rfl
    | cons c t =>
      have hc : d.isOperatorChar c = false := hNone
      simp [operatorRun, hc]
  | cons a v ih =>
    have hNe : a :: v ≠ [] := List.cons_ne_nil a v
    rw [List.cons_append, operatorRun] at h hCut
    rw [List.cons_append, List.cons_append, operatorRun, operatorRun]
    split at h
    · next hGo =>
      rw [if_pos hGo] at hCut
      have hGo' : (d.isOperatorChar a && !Comment.startsLine d (a :: (v ++ s')) &&
          !Comment.startsBlock (a :: (v ++ s'))) = true := by
        simp only [Bool.and_eq_true, Bool.not_eq_true', ← Bool.not_eq_true] at hGo ⊢
        refine ⟨⟨hGo.1.1, ?_⟩, fun hBlock => hGo.2 (Comment.startsBlock_exchange hE hNe hBlock)⟩
        refine fun hLine => hGo.1.2 (Comment.startsLine_exchange d hE hNe ?_ hLine)
        intro hs' hDashes
        exact (hCut hs').2 (hDashes ▸ List.suffix_refl _)
      rw [if_pos hGo, if_pos hGo', ih (Nat.le_of_succ_le_succ h)]
      intro hs'
      obtain ⟨hWhole, hDashes⟩ := hCut hs'
      exact ⟨Nat.succ.inj hWhole, fun hSuffix => hDashes (hSuffix.trans (List.suffix_cons a v))⟩
    · next hStop =>
      have hs' : s' ≠ [] := by
        rintro rfl
        have hWhole := (hCut rfl).1
        rw [if_neg hStop, List.length_cons] at hWhole
        omega
      have hLine := Comment.startsLine_exchange_eq d hE hs' hNe
      have hBlock := Comment.startsBlock_exchange_eq hE hs' hNe
      rw [List.cons_append, List.cons_append] at hLine hBlock
      rw [hLine, hBlock, if_neg hStop, if_neg hStop]

end Symbol

end SqlTemplate
