/-!
# Numbers

A number is a run of digits, a dot with its digits, and an exponent.  Digits
are the ten ASCII digits.  A dot without digits after it belongs to the number
only if it cannot join the number to a name.
-/

namespace SqlTemplate.Number

/-- Number of digits at the head of a text. -/
def digitRun (text : List Char) : Nat := (text.takeWhile Char.isDigit).length

def startsDigit : List Char → Bool
  | [] => false
  | c :: _ => c.isDigit

/-- Whether a dot before this text reads as part of a name: the text starts with
another dot, a quote of an identifier, a brace, a letter or an underscore, or
with any character beyond ASCII. -/
def startsQualified : List Char → Bool
  | [] => false
  | c :: _ =>
    c == '.' || c == '_' || c == '{' || c == '"' || c == '\x60' || c.isAlpha || 0x80 ≤ c.toNat

/-- Length of the dot and the digits after it; `digits` tells whether digits
stand before the dot. -/
def fractionLength (digits : Bool) : List Char → Nat
  | '.' :: rest =>
    if startsDigit rest then digitRun rest + 1
    else if digits && !startsQualified rest then 1
    else 0
  | _ => 0

def signLength : List Char → Nat
  | '+' :: _ => 1
  | '-' :: _ => 1
  | _ => 0

/-- Length of an exponent, which has at least one digit. -/
def exponentLength : List Char → Nat
  | c :: rest =>
    if c == 'e' || c == 'E' then
      let sign := signLength rest
      let digits := digitRun (rest.drop sign)
      if 0 < digits then 1 + sign + digits else 0
    else 0
  | [] => 0

/-- Length of the number at the head of a text. -/
def length (text : List Char) : Nat :=
  let whole := digitRun text
  let mantissa := whole + fractionLength (0 < whole) (text.drop whole)
  mantissa + exponentLength (text.drop mantissa)

/-- Whether a number with a dot in front starts here. -/
def startsFraction : List Char → Bool
  | '.' :: rest => startsDigit rest
  | _ => false

theorem digitRun_pos {text : List Char} (h : startsDigit text = true) : 0 < digitRun text := by
  cases text with
  | nil => simp [startsDigit] at h
  | cons c rest =>
    rw [startsDigit] at h
    simp [digitRun, h]

theorem length_pos {text : List Char} (h : startsDigit text = true ∨ startsFraction text = true) :
    0 < length text := by
  rcases h with h | h
  · have := digitRun_pos h
    simp only [length]
    omega
  · unfold startsFraction at h
    split at h
    · next rest =>
      have hRun : digitRun ('.' :: rest) = 0 := rfl
      simp only [length, hRun, List.drop_zero, fractionLength, h, if_true]
      omega
    · simp at h

end SqlTemplate.Number
