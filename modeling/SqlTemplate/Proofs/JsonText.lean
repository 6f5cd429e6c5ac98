import Mathlib.Data.List.Forall2
import SqlTemplate.Json.Value

/-!
# What is written in JSON is read back

A value is written as a text, the text is cut into symbols, and the symbols are fed
to a machine that builds the value again.  Between text and machine stand the symbols
of a value, `Value.toSymbols`:

* `Numeral.read?_text`, `readString?_text`: a numeral and a string are read back from
  what is written for them, whatever text follows.  A numeral must not be followed by
  a character that goes on with it.
* `symbols_render`: so the symbols of a written value are the symbols of the value.
* `foldlM_toSymbols`: the machine builds a value from its symbols, whatever containers
  are open around it.
* `parse?_render`: so a value is read back from its text.
-/

namespace SqlTemplate.Json

/-! ### Numerals -/

/-- The text does not go on with a numeral that ends before it. -/
def EndsNumeral (text : List Char) : Prop :=
  ∀ c, text.head? = some c → c.isDigit = false ∧ c ≠ '.' ∧ c ≠ 'e' ∧ c ≠ 'E'

theorem endsNumeral_cons {c : Char} (text : List Char)
    (h : c.isDigit = false ∧ c ≠ '.' ∧ c ≠ 'e' ∧ c ≠ 'E') : EndsNumeral (c :: text) := by
  intro x hx
  cases hx
  exact h

namespace Numeral

/-- The parts of the numeral can be written: there are digits where there must be
some, and no zero stands in front of another digit. -/
structure WellFormed (n : Numeral) : Prop where
  whole_digits : ∀ c ∈ n.whole, c.isDigit = true
  whole_ne_nil : n.whole ≠ []
  leading_zero : n.whole.head? = some '0' → n.whole.length = 1
  fraction_digits : ∀ c ∈ n.fraction, c.isDigit = true
  exponent_digits : ∀ negative digits, n.exponent = some (negative, digits) →
    (∀ c ∈ digits, c.isDigit = true) ∧ digits ≠ []

theorem readSign_digits {digits : List Char} (hDigits : ∀ c ∈ digits, c.isDigit = true)
    (hNil : digits ≠ []) (rest : List Char) :
    readSign (digits ++ rest) = (false, digits ++ rest) := by
  cases digits with
  | nil => exact absurd rfl hNil
  | cons c digits =>
    have hc := hDigits c List.mem_cons_self
    rw [List.cons_append, readSign]
    · intro _ hPlus
      cases hPlus
      cases hc
    · intro _ hMinus
      cases hMinus
      cases hc

theorem head_toDigits {n : Nat} (hn : 0 < n) : (Nat.toDigits 10 n).head? ≠ some '0' := by
  induction n using Nat.strongRecOn with
  | ind n ih =>
    by_cases hSmall : n < 10
    · have hAll : ∀ d < 10, 0 < d → Nat.digitChar d ≠ '0' := by decide
      rw [Nat.toDigits_of_lt_base hSmall]
      simpa using hAll n hSmall hn
    · rw [Nat.toDigits_of_base_le (by decide) (by omega),
        List.head?_append_of_ne_nil _ Nat.toDigits_ne_nil]
      exact ih (n / 10) (by omega) (by omega)

theorem wellFormed_ofNat (n : Nat) : (ofNat n).WellFormed where
  whole_digits := fun c hc => Nat.isDigit_of_mem_toDigits (by decide) (by decide) hc
  whole_ne_nil := Nat.toDigits_ne_nil
  leading_zero := by
    intro hHead
    have hZero : n = 0 := by
      by_contra hn
      exact head_toDigits (Nat.pos_of_ne_zero hn) hHead
    subst hZero
    rfl
  fraction_digits := fun _ hc => absurd hc List.not_mem_nil
  exponent_digits := fun _ _ h => nomatch h

section Digits

variable {digits rest : List Char} (hDigits : ∀ c ∈ digits, c.isDigit = true)
  (hRest : ∀ c, rest.head? = some c → c.isDigit = false)

include hDigits hRest

theorem takeWhile_digits : (digits ++ rest).takeWhile Char.isDigit = digits := by
  rw [List.takeWhile_append_of_pos hDigits]
  cases rest with
  | nil => simp
  | cons c rest => simp [hRest c rfl]

theorem dropWhile_digits : (digits ++ rest).dropWhile Char.isDigit = rest := by
  rw [List.dropWhile_append_of_pos hDigits]
  cases rest with
  | nil => simp
  | cons c rest => simp [hRest c rfl]

theorem readWhole?_digits (hNil : digits ≠ [])
    (hZero : digits.head? = some '0' → digits.length = 1) :
    readWhole? (digits ++ rest) = some (digits, rest) := by
  rw [readWhole?, takeWhile_digits hDigits hRest, dropWhile_digits hDigits hRest, if_neg]
  simp only [Bool.or_eq_true, List.isEmpty_iff, hNil, Bool.and_eq_true, beq_iff_eq,
    decide_eq_true_eq, false_or, not_and]
  intro hHead
  have := hZero hHead
  omega

theorem readFraction?_digits (hNil : digits ≠ []) :
    readFraction? ('.' :: (digits ++ rest)) = some (digits, rest) := by
  rw [readFraction?, takeWhile_digits hDigits hRest, dropWhile_digits hDigits hRest, if_neg]
  simpa using hNil

theorem readExponent?_digits (hNil : digits ≠ []) (negative : Bool) :
    readExponent? (exponentText (some (negative, digits)) ++ rest) =
      some (some (negative, digits), rest) := by
  have hEmpty : digits.isEmpty = false := by simpa using hNil
  cases negative with
  | false =>
    simp [exponentText, readExponent?, readSign_digits hDigits hNil,
      takeWhile_digits hDigits hRest, dropWhile_digits hDigits hRest, hEmpty]
  | true =>
    simp [exponentText, readExponent?, readSign, takeWhile_digits hDigits hRest,
      dropWhile_digits hDigits hRest, hEmpty]

end Digits

theorem readFraction?_none {rest : List Char} (hRest : ∀ c, rest.head? = some c → c ≠ '.') :
    readFraction? rest = some ([], rest) := by
  unfold readFraction?
  split
  · exact absurd rfl (hRest '.' rfl)
  · rfl

theorem readExponent?_none {rest : List Char}
    (hRest : ∀ c, rest.head? = some c → c ≠ 'e' ∧ c ≠ 'E') :
    readExponent? rest = some (none, rest) := by
  cases rest with
  | nil => rfl
  | cons c rest =>
    obtain ⟨hSmall, hCapital⟩ := hRest c rfl
    simp [readExponent?, hSmall, hCapital]

/-- A written exponent does not go on with the digits or the point before it. -/
theorem head_exponentText (exponent : Option (Bool × List Char)) {rest : List Char}
    (hRest : EndsNumeral rest) :
    ∀ c, (exponentText exponent ++ rest).head? = some c → c.isDigit = false ∧ c ≠ '.' := by
  intro c hc
  cases exponent with
  | none =>
    obtain ⟨hDigit, hPoint, _⟩ := hRest c hc
    exact ⟨hDigit, hPoint⟩
  | some e =>
    cases hc
    exact ⟨by decide, by decide⟩

theorem readExponent?_text {n : Numeral} (h : n.WellFormed) {rest : List Char}
    (hRest : EndsNumeral rest) :
    readExponent? (exponentText n.exponent ++ rest) = some (n.exponent, rest) := by
  cases hExponent : n.exponent with
  | none => exact readExponent?_none fun c hc => (hRest c hc).2.2
  | some e =>
    obtain ⟨negative, digits⟩ := e
    obtain ⟨hDigits, hNil⟩ := h.exponent_digits negative digits hExponent
    exact readExponent?_digits hDigits (fun c hc => (hRest c hc).1) hNil negative

theorem readUnsigned?_text {n : Numeral} (h : n.WellFormed) {rest : List Char}
    (hRest : EndsNumeral rest) :
    readUnsigned? n.negative
        (n.whole ++ ((if n.fraction.isEmpty then [] else '.' :: n.fraction)
          ++ (exponentText n.exponent ++ rest))) = some (n, rest) := by
  have hExponent := readExponent?_text h hRest
  have hHead := head_exponentText n.exponent hRest
  generalize exponentText n.exponent ++ rest = after at hExponent hHead
  by_cases hFraction : n.fraction = []
  · have hWhole := readWhole?_digits h.whole_digits (fun c hc => (hHead c hc).1) h.whole_ne_nil
      h.leading_zero
    have hNone := readFraction?_none fun c hc => (hHead c hc).2
    simp [readUnsigned?, hFraction, hWhole, hNone, hExponent]
    rw [← hFraction]
  · have hPoint : ∀ c, ('.' :: (n.fraction ++ after)).head? = some c → c.isDigit = false := by
      intro c hc
      cases hc
      decide
    have hWhole := readWhole?_digits h.whole_digits hPoint h.whole_ne_nil h.leading_zero
    have hDigits := readFraction?_digits h.fraction_digits (fun c hc => (hHead c hc).1) hFraction
    simp [readUnsigned?, hFraction, hWhole, hDigits, hExponent]

/-- **A numeral is read back.** -/
theorem read?_text {n : Numeral} (h : n.WellFormed) {rest : List Char} (hRest : EndsNumeral rest) :
    read? (n.text ++ rest) = some (n, rest) := by
  have hUnsigned := readUnsigned?_text h hRest
  cases hNegative : n.negative with
  | true =>
    rw [hNegative] at hUnsigned
    simpa [text, hNegative, read?] using hUnsigned
  | false =>
    rw [hNegative] at hUnsigned
    rw [text, hNegative]
    simp only [Bool.false_eq_true, if_false, List.nil_append, List.append_assoc]
    rw [read?]
    · exact hUnsigned
    · intro tail hMinus
      cases hWhole : n.whole with
      | nil => exact h.whole_ne_nil hWhole
      | cons c digits =>
        have hc := h.whole_digits c (by simp [hWhole])
        rw [hWhole] at hMinus
        cases hMinus
        cases hc

end Numeral

/-! ### Strings -/

/-- The item stands for the character by itself. -/
inductive StringItem.Denotes : StringItem → Char → Prop
  | char (c : Char) : Denotes (.char c) c
  | unit {c : Char} : c.toNat < 0xD800 → Denotes (.unit c.toNat) c

theorem hexValue?_digitChar {d : Nat} (h : d < 16) : hexValue? (Nat.digitChar d) = some d := by
  have hAll : ∀ d < 16, hexValue? (Nat.digitChar d) = some d := by decide
  exact hAll d h

theorem readString?_hexDigits4 {code : Nat} (hCode : code < 0x10000) {rest after : List Char}
    {items : List StringItem} (h : readString? rest = some (items, after)) :
    readString? ('\\' :: 'u' :: (hexDigits4 code ++ rest)) = some (.unit code :: items, after) := by
  have hUnit : unit? (Nat.digitChar (code / 4096 % 16)) (Nat.digitChar (code / 256 % 16))
      (Nat.digitChar (code / 16 % 16)) (Nat.digitChar (code % 16)) = some code := by
    rw [unit?, hexValue?_digitChar (by omega), hexValue?_digitChar (by omega),
      hexValue?_digitChar (by omega), hexValue?_digitChar (by omega)]
    show some _ = some code
    congr 1
    omega
  simp [hexDigits4, readString?, hUnit, h]

theorem readString?_escaped {e c : Char} (he : escaped? e = some c) (hu : e ≠ 'u')
    {rest after : List Char} {items : List StringItem}
    (h : readString? rest = some (items, after)) :
    readString? ('\\' :: e :: rest) = some (.char c :: items, after) := by
  rw [readString?]
  · simp [he, h]
  · intro _ _ _ _ _ hUnit
    exact absurd hUnit hu

theorem readString?_plain {c : Char} (hQuote : c ≠ '"') (hBackslash : c ≠ '\\')
    (hControl : 0x20 ≤ c.toNat) {rest after : List Char} {items : List StringItem}
    (h : readString? rest = some (items, after)) :
    readString? (c :: rest) = some (.char c :: items, after) := by
  have hLow : ¬ c.toNat < 0x20 := by omega
  rw [readString?.eq_def]
  split <;> simp_all

/-- A character is written as a backslash and a letter, as a 16-bit unit, or as
itself. -/
theorem charText_cases (c : Char) :
    (∃ e, charText c = ['\\', e] ∧ escaped? e = some c ∧ e ≠ 'u') ∨
      (charText c = '\\' :: 'u' :: hexDigits4 c.toNat ∧ c.toNat < 0x20) ∨
      (charText c = [c] ∧ c ≠ '"' ∧ c ≠ '\\' ∧ 0x20 ≤ c.toNat) := by
  unfold charText
  iterate 7
    split
    · next hc => exact Or.inl ⟨_, rfl, by rw [beq_iff_eq.1 hc]; rfl, by decide⟩
  split
  · next hControl => exact Or.inr (Or.inl ⟨rfl, hControl⟩)
  · next hQuote hBackslash _ _ _ _ _ hControl =>
    rw [beq_iff_eq] at hQuote hBackslash
    exact Or.inr (Or.inr ⟨rfl, hQuote, hBackslash, by omega⟩)

/-- **A written character is read back**, as an item that stands for it. -/
theorem readString?_charText (c : Char) {rest after : List Char} {items : List StringItem}
    (h : readString? rest = some (items, after)) :
    ∃ item, item.Denotes c ∧ readString? (charText c ++ rest) = some (item :: items, after) := by
  rcases charText_cases c with ⟨e, hText, hEscaped, hu⟩ | ⟨hText, hControl⟩ |
    ⟨hText, hQuote, hBackslash, hControl⟩
  · rw [hText]
    exact ⟨.char c, .char c, readString?_escaped hEscaped hu h⟩
  · rw [hText]
    exact ⟨.unit c.toNat, .unit (by omega), readString?_hexDigits4 (by omega) h⟩
  · rw [hText]
    exact ⟨.char c, .char c, readString?_plain hQuote hBackslash hControl h⟩

theorem readString?_text (text rest : List Char) :
    ∃ items, List.Forall₂ StringItem.Denotes items text ∧
      readString? (text.flatMap charText ++ '"' :: rest) = some (items, rest) := by
  induction text with
  | nil => exact ⟨[], .nil, by rw [List.flatMap_nil, List.nil_append, readString?]⟩
  | cons c text ih =>
    obtain ⟨items, hItems, hRead⟩ := ih
    obtain ⟨item, hItem, hFirst⟩ := readString?_charText c hRead
    refine ⟨item :: items, .cons hItem hItems, ?_⟩
    rw [List.flatMap_cons, List.append_assoc, hFirst]

theorem assemble?_unit {code : Nat} (h : code < 0xD800) (rest : List StringItem) :
    assemble? (.unit code :: rest) = (assemble? rest).map (Char.ofNat code :: ·) := by
  have hHigh : isHighSurrogate code = false := by simp [isHighSurrogate]; omega
  have hLow : isLowSurrogate code = false := by simp [isLowSurrogate]; omega
  cases rest with
  | nil => simp [assemble?, hHigh, hLow]
  | cons item rest => cases item <;> simp [assemble?, hHigh, hLow]

theorem assemble?_denotes {items : List StringItem} {text : List Char}
    (h : List.Forall₂ StringItem.Denotes items text) : assemble? items = some text := by
  induction h with
  | nil => rfl
  | cons hItem _ ih =>
    cases hItem with
    | char c => rw [assemble?, ih, Option.map_some]
    | unit hCode => rw [assemble?_unit hCode, ih, Option.map_some, Char.ofNat_toNat]

/-! ### Symbols -/

theorem symbols_cons {c : Char} {text after : List Char} {s : Symbol} (hBlank : isBlank c = false)
    (h : symbol? (c :: text) = some (s, after)) : symbols (c :: text) = s :: symbols after := by
  rw [symbols, if_neg (by simp [hBlank])]
  split
  · next hSome =>
    rw [h] at hSome
    cases hSome
    rfl
  · next hNone =>
    rw [h] at hNone
    cases hNone

theorem symbols_stringText (s : String) (rest : List Char) :
    symbols (stringText s ++ rest) = .text s :: symbols rest := by
  obtain ⟨items, hItems, hRead⟩ := readString?_text s.toList rest
  have hText : stringText s ++ rest = '"' :: (s.toList.flatMap charText ++ '"' :: rest) := by
    simp [stringText]
  rw [hText]
  apply symbols_cons rfl
  simp [symbol?, mark?, hRead, stringSymbol, assemble?_denotes hItems]

theorem Numeral.exists_head {n : Numeral} (h : n.WellFormed) :
    ∃ c text, n.text = c :: text ∧ (c = '-' ∨ c.isDigit = true) := by
  rw [Numeral.text]
  cases hNegative : n.negative with
  | true => exact ⟨'-', _, rfl, Or.inl rfl⟩
  | false =>
    cases hWhole : n.whole with
    | nil => exact absurd hWhole h.whole_ne_nil
    | cons c digits => exact ⟨c, _, rfl, Or.inr (h.whole_digits c (by simp [hWhole]))⟩

/-- A text that starts like a numeral starts like nothing else. -/
theorem symbol?_numeral {c : Char} (hc : c = '-' ∨ c.isDigit = true) (text : List Char) :
    isBlank c = false ∧
      symbol? (c :: text) =
        (Numeral.read? (c :: text)).map fun (n, after) => (.number n, after) := by
  have hOther : ∀ x : Char, x ≠ '-' → x.isDigit = false → c ≠ x := by
    rintro x hMinus hDigit rfl
    rcases hc with hc | hc
    · exact hMinus hc
    · rw [hDigit] at hc
      cases hc
  have hMark : mark? c = none := by simp [mark?, hOther]
  refine ⟨by simp [isBlank, hOther], ?_⟩
  rw [symbol?]
  · simp [hMark, hOther]
  · intro _ hNull
    cases hNull
    exact absurd rfl (hOther 'n' (by decide) (by decide))
  · intro _ hTrue
    cases hTrue
    exact absurd rfl (hOther 't' (by decide) (by decide))
  · intro _ hFalse
    cases hFalse
    exact absurd rfl (hOther 'f' (by decide) (by decide))

theorem symbols_numeral {n : Numeral} (h : n.WellFormed) {rest : List Char}
    (hRest : EndsNumeral rest) : symbols (n.text ++ rest) = .number n :: symbols rest := by
  have hRead := Numeral.read?_text h hRest
  obtain ⟨c, text, hText, hc⟩ := n.exists_head h
  rw [hText, List.cons_append] at hRead ⊢
  obtain ⟨hBlank, hSymbol⟩ := symbol?_numeral hc (text ++ rest)
  rw [hRead] at hSymbol
  exact symbols_cons hBlank hSymbol

/-! ### Values -/

namespace Value

mutual

/-- The symbols with which a value is written. -/
def toSymbols : Value → List Symbol
  | .null => [.null]
  | .bool b => [.bool b]
  | .number n => [.number n]
  | .text s => [.text s]
  | .illegible => [.loneSurrogate]
  | .array items => .openArray :: itemSymbols items ++ [.closeArray]
  | .object members => .openObject :: memberSymbols members ++ [.closeObject]

def itemSymbols : List Value → List Symbol
  | [] => []
  | [v] => v.toSymbols
  | v :: w :: rest => v.toSymbols ++ .comma :: itemSymbols (w :: rest)

def memberSymbols : List (String × Value) → List Symbol
  | [] => []
  | [(key, v)] => .text key :: .colon :: v.toSymbols
  | (key, v) :: m :: rest =>
    .text key :: .colon :: v.toSymbols ++ .comma :: memberSymbols (m :: rest)

end

mutual

/-- Every numeral in the value can be written. -/
def WellFormed : Value → Prop
  | .number n => n.WellFormed
  | .array items => WellFormedItems items
  | .object members => WellFormedMembers members
  | _ => True

def WellFormedItems : List Value → Prop
  | [] => True
  | v :: rest => v.WellFormed ∧ WellFormedItems rest

def WellFormedMembers : List (String × Value) → Prop
  | [] => True
  | (_, v) :: rest => v.WellFormed ∧ WellFormedMembers rest

end

theorem wellFormed_array {items : List Value} (h : ∀ v ∈ items, v.WellFormed) :
    (array items).WellFormed := by
  rw [WellFormed]
  induction items with
  | nil => trivial
  | cons v items ih =>
    rw [List.forall_mem_cons] at h
    rw [WellFormedItems]
    exact ⟨h.1, ih h.2⟩

theorem wellFormed_object {members : List (String × Value)} (h : ∀ m ∈ members, m.2.WellFormed) :
    (object members).WellFormed := by
  rw [WellFormed]
  induction members with
  | nil => trivial
  | cons m members ih =>
    rw [List.forall_mem_cons] at h
    rw [WellFormedMembers]
    exact ⟨h.1, ih h.2⟩

end Value

open Value

/-- A mark is a symbol by itself. -/
theorem symbols_mark {c : Char} {s : Symbol} (h : mark? c = some s) (rest : List Char) :
    symbols (c :: rest) = s :: symbols rest := by
  have hOther : ∀ x : Char, mark? x = none → c ≠ x := by
    rintro x hx rfl
    rw [h] at hx
    cases hx
  apply symbols_cons
  · simp [isBlank, hOther, mark?]
  · rw [symbol?]
    · rw [h]
    · intro _ hNull
      cases hNull
      exact absurd rfl (hOther 'n' rfl)
    · intro _ hTrue
      cases hTrue
      exact absurd rfl (hOther 't' rfl)
    · intro _ hFalse
      cases hFalse
      exact absurd rfl (hOther 'f' rfl)

mutual

/-- **The symbols of a written value are those of the value.** -/
theorem symbols_render : ∀ (v : Value) (rest : List Char), v.WellFormed → EndsNumeral rest →
    symbols (v.render ++ rest) = v.toSymbols ++ symbols rest
  | .null, rest, _, _ => symbols_cons rfl rfl
  | .bool true, rest, _, _ => symbols_cons rfl rfl
  | .bool false, rest, _, _ => symbols_cons rfl rfl
  | .number n, rest, h, hRest => symbols_numeral (by rwa [WellFormed] at h) hRest
  | .text s, rest, _, _ => symbols_stringText s rest
  | .illegible, rest, _, _ => by
    have hEnd : readString? ('"' :: rest) = some ([], rest) := by rw [readString?]
    have hRead := readString?_hexDigits4 (show 0xD800 < 0x10000 by decide) hEnd
    have hText : render .illegible ++ rest =
        '"' :: '\\' :: 'u' :: (hexDigits4 0xD800 ++ '"' :: rest) := by
      simp [render]
    rw [hText]
    apply symbols_cons rfl
    simp [symbol?, mark?, hRead, stringSymbol, assemble?, isHighSurrogate]
  | .array items, rest, h, _ => by
    rw [WellFormed] at h
    have hItems := symbols_renderItems items (']' :: rest) h (endsNumeral_cons rest (by decide))
    rw [render, toSymbols, List.append_assoc, List.cons_append, symbols_mark rfl,
      List.singleton_append, hItems, symbols_mark rfl, List.cons_append, List.cons_append,
      List.append_assoc, List.singleton_append]
  | .object members, rest, h, _ => by
    rw [WellFormed] at h
    have hMembers :=
      symbols_renderMembers members ('}' :: rest) h (endsNumeral_cons rest (by decide))
    rw [render, toSymbols, List.append_assoc, List.cons_append, symbols_mark rfl,
      List.singleton_append, hMembers, symbols_mark rfl, List.cons_append, List.cons_append,
      List.append_assoc, List.singleton_append]

theorem symbols_renderItems : ∀ (items : List Value) (rest : List Char), WellFormedItems items →
    EndsNumeral rest → symbols (renderItems items ++ rest) = itemSymbols items ++ symbols rest
  | [], rest, _, _ => rfl
  | [v], rest, h, hRest => by
    rw [WellFormedItems] at h
    rw [renderItems, itemSymbols]
    exact symbols_render v rest h.1 hRest
  | v :: w :: items, rest, h, hRest => by
    rw [WellFormedItems] at h
    have hItems := symbols_renderItems (w :: items) rest h.2 hRest
    rw [renderItems, itemSymbols, List.append_assoc, List.cons_append,
      symbols_render v _ h.1 (endsNumeral_cons _ (by decide)), symbols_mark rfl, hItems,
      List.append_assoc, List.cons_append]

theorem symbols_renderMembers : ∀ (members : List (String × Value)) (rest : List Char),
    WellFormedMembers members → EndsNumeral rest →
    symbols (renderMembers members ++ rest) = memberSymbols members ++ symbols rest
  | [], rest, _, _ => rfl
  | [(key, v)], rest, h, hRest => by
    rw [WellFormedMembers] at h
    rw [renderMembers, memberSymbols, List.append_assoc, symbols_stringText, List.cons_append,
      symbols_mark rfl, symbols_render v rest h.1 hRest, List.cons_append, List.cons_append]
  | (key, v) :: m :: members, rest, h, hRest => by
    rw [WellFormedMembers] at h
    have hMembers := symbols_renderMembers (m :: members) rest h.2 hRest
    rw [renderMembers, memberSymbols, List.append_assoc, List.append_assoc, symbols_stringText,
      List.cons_append, symbols_mark rfl, List.cons_append,
      symbols_render v _ h.1 (endsNumeral_cons _ (by decide)), symbols_mark rfl, hMembers]
    simp only [List.cons_append, List.append_assoc]

end

theorem symbols_of_render {v : Value} (h : v.WellFormed) : symbols v.render = v.toSymbols := by
  have hEnd : EndsNumeral [] := by
    intro c hc
    cases hc
  have hRender := symbols_render v [] h hEnd
  rwa [List.append_nil, symbols, List.append_nil] at hRender

/-! ### The machine -/

/-- No value starts with the end of an array. -/
theorem exists_head_itemSymbols (v : Value) (items : List Value) :
    ∃ s rest, itemSymbols (v :: items) = s :: rest ∧ s ≠ .closeArray := by
  have hHead : ∃ s rest, v.toSymbols = s :: rest ∧ s ≠ .closeArray := by
    cases v <;> exact ⟨_, _, rfl, by simp⟩
  obtain ⟨s, rest, hSymbols, hs⟩ := hHead
  cases items with
  | nil => exact ⟨s, rest, hSymbols, hs⟩
  | cons w items => exact ⟨s, _, by rw [itemSymbols, hSymbols, List.cons_append], hs⟩

theorem step_firstItem {s : Symbol} (hs : s ≠ .closeArray) (stack : List Frame) :
    step (stack, .firstItem) s = step (stack, .value) s := by
  cases s <;> first | rfl | exact absurd rfl hs

mutual

/-- **The machine builds a value from its symbols**, and leaves alone the containers
that are open around it. -/
theorem foldlM_toSymbols : ∀ (v : Value) (stack : List Frame) (rest : List Symbol),
    (v.toSymbols ++ rest).foldlM step (stack, .value) = rest.foldlM step (stack, .after v)
  | .null, _, _ => rfl
  | .bool _, _, _ => rfl
  | .number _, _, _ => rfl
  | .text _, _, _ => rfl
  | .illegible, _, _ => rfl
  | .array [], _, _ => rfl
  | .array (v :: items), stack, rest => by
    have hItems := foldlM_itemSymbols (v :: items) (List.cons_ne_nil v items) [] stack rest
    obtain ⟨s, symbols, hSymbols, hs⟩ := exists_head_itemSymbols v items
    rw [hSymbols, List.cons_append, List.foldlM_cons, ← step_firstItem hs] at hItems
    rw [toSymbols, hSymbols, List.append_assoc, List.cons_append, List.cons_append]
    exact hItems
  | .object [], _, _ => rfl
  | .object ((key, v) :: members), stack, rest => by
    have hMembers :=
      foldlM_memberSymbols ((key, v) :: members) (List.cons_ne_nil _ members) [] stack rest
    rw [List.reverse_nil, List.nil_append, ofMembers_some] at hMembers
    rw [toSymbols, List.append_assoc, List.cons_append, ← hMembers]
    -- the first key is read as every other one
    cases members <;> rfl

theorem foldlM_itemSymbols : ∀ (items : List Value), items ≠ [] →
    ∀ (done : List Value) (stack : List Frame) (rest : List Symbol),
      (itemSymbols items ++ .closeArray :: rest).foldlM step (.array done :: stack, .value) =
        rest.foldlM step (stack, .after (.array (done.reverse ++ items)))
  | [], h, _, _, _ => absurd rfl h
  | [v], _, done, stack, rest => by
    rw [itemSymbols, foldlM_toSymbols v, List.foldlM_cons]
    show rest.foldlM step (stack, .after (.array (v :: done).reverse)) = _
    rw [List.reverse_cons]
  | v :: w :: items, _, done, stack, rest => by
    have hItems := foldlM_itemSymbols (w :: items) (List.cons_ne_nil w items) (v :: done) stack rest
    rw [itemSymbols, List.append_assoc, foldlM_toSymbols v]
    rw [List.reverse_cons, List.append_assoc, List.singleton_append] at hItems
    exact hItems

theorem foldlM_memberSymbols : ∀ (members : List (String × Value)), members ≠ [] →
    ∀ (done : List (Option String × Value)) (stack : List Frame) (rest : List Symbol),
      (memberSymbols members ++ .closeObject :: rest).foldlM step (stack, .key done) =
        rest.foldlM step
          (stack, .after (.ofMembers (done.reverse ++ members.map fun m => (some m.1, m.2))))
  | [], h, _, _, _ => absurd rfl h
  | [(key, v)], _, done, stack, rest => by
    have hValue :=
      foldlM_toSymbols v (.object done (some key) :: stack) (.closeObject :: rest)
    rw [List.foldlM_cons] at hValue
    rw [List.map_singleton, ← List.reverse_cons]
    exact hValue
  | (key, v) :: m :: members, _, done, stack, rest => by
    have hValue := foldlM_toSymbols v (.object done (some key) :: stack)
      (.comma :: (memberSymbols (m :: members) ++ .closeObject :: rest))
    have hMembers := foldlM_memberSymbols (m :: members) (List.cons_ne_nil m members)
      ((some key, v) :: done) stack rest
    rw [List.reverse_cons, List.append_assoc, List.singleton_append] at hMembers
    rw [memberSymbols, List.append_assoc, List.map_cons, ← hMembers]
    exact hValue

end

/-- **A value is read back.** -/
theorem parse?_render {v : Value} (h : v.WellFormed) : parse? v.render = some v := by
  have hMachine := foldlM_toSymbols v [] []
  rw [List.append_nil] at hMachine
  rw [parse?, symbols_of_render h, hMachine]
  rfl

end SqlTemplate.Json
