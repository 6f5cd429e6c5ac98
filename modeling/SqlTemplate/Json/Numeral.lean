import SqlTemplate.Decimal.Shortest

/-!
# Numerals

A numeral is a number as it is written in JSON.  Whole numbers of 64 bits are
kept exactly; every other numeral stands for a double.
-/

namespace SqlTemplate.Json

/-- The parts of a written number.  An absent fraction has no digits. -/
structure Numeral where
  negative : Bool
  whole : List Char
  fraction : List Char
  /-- The sign of the exponent, `true` for minus, and its digits. -/
  exponent : Option (Bool × List Char)
deriving DecidableEq, Repr

namespace Numeral

def ofNat (n : Nat) : Numeral := ⟨false, Nat.toDigits 10 n, [], none⟩

/-! ### Reading -/

/-- An optional fraction. -/
def readFraction? : List Char → Option (List Char × List Char)
  | '.' :: rest =>
    let digits := rest.takeWhile Char.isDigit
    if digits.isEmpty then none else some (digits, rest.dropWhile Char.isDigit)
  | text => some ([], text)

/-- An optional sign; `true` for minus. -/
def readSign : List Char → Bool × List Char
  | '+' :: rest => (false, rest)
  | '-' :: rest => (true, rest)
  | text => (false, text)

/-- An optional exponent. -/
def readExponent? : List Char → Option (Option (Bool × List Char) × List Char)
  | [] => some (none, [])
  | c :: rest =>
    if c == 'e' || c == 'E' then
      let (negative, rest) := readSign rest
      let digits := rest.takeWhile Char.isDigit
      if digits.isEmpty then none
      else some (some (negative, digits), rest.dropWhile Char.isDigit)
    else some (none, c :: rest)

/-- The digits before the point: no zero in front of another digit. -/
def readWhole? (text : List Char) : Option (List Char × List Char) :=
  let digits := text.takeWhile Char.isDigit
  if digits.isEmpty || (digits.head? == some '0' && 1 < digits.length) then none
  else some (digits, text.dropWhile Char.isDigit)

/-- A numeral without its sign. -/
def readUnsigned? (negative : Bool) (text : List Char) : Option (Numeral × List Char) := do
  let (whole, text) ← readWhole? text
  let (fraction, text) ← readFraction? text
  let (exponent, text) ← readExponent? text
  return (⟨negative, whole, fraction, exponent⟩, text)

/-- The numeral at the head of a text and the text after it. -/
def read? : List Char → Option (Numeral × List Char)
  | '-' :: rest => readUnsigned? true rest
  | text => readUnsigned? false text

theorem length_dropWhile_le (p : Char → Bool) (text : List Char) :
    (text.dropWhile p).length ≤ text.length :=
  (List.dropWhile_sublist p).length_le

theorem length_le_of_readFraction? {text digits after : List Char}
    (h : readFraction? text = some (digits, after)) : after.length ≤ text.length := by
  unfold readFraction? at h
  split at h
  · next rest =>
    simp only [Option.ite_none_left_eq_some, Option.some.injEq, Prod.mk.injEq] at h
    have := length_dropWhile_le Char.isDigit rest
    simp only [← h.2.2, List.length_cons]
    omega
  · simp only [Option.some.injEq, Prod.mk.injEq] at h
    exact Nat.le_of_eq (congrArg List.length h.2.symm)

theorem length_readSign_le (text : List Char) : (readSign text).2.length ≤ text.length := by
  unfold readSign
  split <;> simp

theorem length_le_of_readExponent? {text after : List Char} {exponent : Option (Bool × List Char)}
    (h : readExponent? text = some (exponent, after)) : after.length ≤ text.length := by
  unfold readExponent? at h
  split at h
  · simp_all
  · next c rest =>
    split at h
    · simp only [Option.ite_none_left_eq_some, Option.some.injEq, Prod.mk.injEq] at h
      have hDrop := length_dropWhile_le Char.isDigit (readSign rest).2
      have hSign := length_readSign_le rest
      simp only [← h.2.2, List.length_cons]
      omega
    · simp only [Option.some.injEq, Prod.mk.injEq] at h
      exact Nat.le_of_eq (congrArg List.length h.2.symm)

theorem length_lt_of_readWhole? {text digits after : List Char}
    (h : readWhole? text = some (digits, after)) : after.length < text.length := by
  simp only [readWhole?, Option.ite_none_left_eq_some, Option.some.injEq, Prod.mk.injEq,
    Bool.or_eq_true, not_or, List.isEmpty_iff] at h
  obtain ⟨⟨hDigits, _⟩, _, rfl⟩ := h
  have hSplit : (text.takeWhile Char.isDigit).length + (text.dropWhile Char.isDigit).length
      = text.length := by
    rw [← List.length_append, List.takeWhile_append_dropWhile]
  have hPos : 0 < (text.takeWhile Char.isDigit).length := List.length_pos_iff.2 hDigits
  omega

theorem length_lt_of_readUnsigned? {negative : Bool} {text after : List Char} {n : Numeral}
    (h : readUnsigned? negative text = some (n, after)) : after.length < text.length := by
  simp only [readUnsigned?, bind, Option.bind_eq_some_iff, pure, Option.some.injEq,
    Prod.mk.injEq] at h
  obtain ⟨⟨whole, text₁⟩, hWhole, ⟨fraction, text₂⟩, hFraction, ⟨exponent, text₃⟩, hExponent, _,
    rfl⟩ := h
  have h₁ := length_lt_of_readWhole? hWhole
  have h₂ := length_le_of_readFraction? hFraction
  have h₃ := length_le_of_readExponent? hExponent
  dsimp only at h₁ h₂ h₃ ⊢
  omega

theorem length_lt_of_read? {text after : List Char} {n : Numeral}
    (h : read? text = some (n, after)) : after.length < text.length := by
  unfold read? at h
  split at h
  · have := length_lt_of_readUnsigned? h
    simp only [List.length_cons]
    omega
  · exact length_lt_of_readUnsigned? h

/-! ### Writing -/

def exponentText : Option (Bool × List Char) → List Char
  | none => []
  | some (negative, digits) => 'e' :: (if negative then '-' :: digits else digits)

def text (n : Numeral) : List Char :=
  (if n.negative then ['-'] else []) ++ n.whole
    ++ (if n.fraction.isEmpty then [] else '.' :: n.fraction) ++ exponentText n.exponent

/-! ### Values -/

/-- The first natural number that does not fit 64 bits. -/
def wordBound : Nat := 0x10000000000000000

def isWhole (n : Numeral) : Bool := n.fraction.isEmpty && n.exponent.isNone

def wholeValue (n : Numeral) : Nat := Nat.ofDigitChars 10 n.whole 0

/-- A natural number of 64 bits, written without fraction and exponent. -/
def toNat? (n : Numeral) : Option Nat :=
  if n.isWhole && !n.negative && n.wholeValue < wordBound then some n.wholeValue else none

/-- The integer that the numeral stands for, if it has 64 bits.  The numeral
`-0` is not one. -/
def toInt? (n : Numeral) : Option Int :=
  if n.isWhole then
    if n.negative then
      if 0 < n.wholeValue ∧ 2 * n.wholeValue ≤ wordBound then some (-n.wholeValue) else none
    else if n.wholeValue < wordBound then some n.wholeValue
    else none
  else none

/-- Digits read so far: their value, the power of ten they still lack, and
whether later digits are dropped because the value would not fit 64 bits. -/
structure Significand where
  value : Nat
  exponent : Int
  full : Bool

namespace Significand

/-- One more digit before the point; a dropped one counts as a power of ten. -/
def pushWhole (s : Significand) (c : Char) : Significand :=
  let value := Nat.ofDigitChars 10 [c] s.value
  if s.full || wordBound ≤ value then ⟨s.value, s.exponent + 1, true⟩
  else ⟨value, s.exponent, false⟩

/-- One more digit after the point. -/
def pushFraction (s : Significand) (c : Char) : Significand :=
  let value := Nat.ofDigitChars 10 [c] s.value
  if s.full || wordBound ≤ value then { s with full := true }
  else ⟨value, s.exponent - 1, false⟩

end Significand

def significand (n : Numeral) : Significand :=
  let whole := n.whole.foldl Significand.pushWhole ⟨0, 0, false⟩
  n.fraction.foldl Significand.pushFraction { whole with full := false }

/-- The greatest exponent that is looked at. -/
def maxExponent : Nat := 0x7FFFFFFF

/-- The double that the numeral stands for, without its sign; `none` if it is
beyond all doubles. -/
def toDouble? (n : Numeral) : Option Decimal.Double :=
  let s := n.significand
  match n.exponent with
  | none => Decimal.Double.ofDecimal? s.value s.exponent
  | some (negative, digits) =>
    let e := Nat.ofDigitChars 10 digits 0
    if maxExponent < e then if s.value ≠ 0 ∧ negative = false then none else some .zero
    else Decimal.Double.ofDecimal? s.value (if negative then s.exponent - e else s.exponent + e)

/-- What the numeral stands for, as a message names it. -/
def describe? (n : Numeral) : Option String :=
  match n.toInt? with
  | some i => some s!"integer `{i}`"
  | none => n.toDouble?.map fun x => s!"floating point `{x.text n.negative}`"

end Numeral

end SqlTemplate.Json
