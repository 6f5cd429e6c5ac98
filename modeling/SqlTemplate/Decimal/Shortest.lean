import SqlTemplate.Decimal.Double

/-!
# The shortest text of a number

`shortest` finds the fewest decimal digits that read back as the same double,
and of those the nearest to it.  `Double.text` writes them out: with a decimal
point while it stands near the digits, and with an exponent otherwise.
-/

namespace SqlTemplate.Decimal

/-- Decimal digits and the power of ten of the last of them. -/
structure Digits where
  value : Nat
  exponent : Int
deriving DecidableEq, Repr

/-- The greatest `k` with `10 ^ k ≤ num / den`, for a positive ratio above
`10 ^ -limit`. -/
def floorLog10 (num den : Nat) (limit : Nat) : Int :=
  if den ≤ num then (Nat.toDigits 10 (num / den)).length - 1
  else
    match (List.range (limit + 1)).find? fun k => den ≤ num * Nat.pow 10 k with
    | some k => -k
    | none => -limit

/-- The range of ratios that round to a double, over one denominator. -/
structure Interval where
  low : Nat
  value : Nat
  high : Nat
  den : Nat
  /-- Whether the two ends round to the double as well. -/
  closed : Bool

/-- The ratios that round to a positive double.  Below a power of two the
doubles lie twice as close. -/
def Double.interval (x : Double) : Interval :=
  let (factor, den) := scaleDown 1 1 (2 - x.power)
  let below := if 2 * x.mantissa = mantissaBound ∧ minPower < x.power then 1 else 2
  { low := (4 * x.mantissa - below) * factor
    value := 4 * x.mantissa * factor
    high := (4 * x.mantissa + 2) * factor
    den := den
    closed := x.mantissa % 2 = 0 }

/-- Whether the decimal rounds to the double of the interval. -/
def Interval.contains (i : Interval) (d : Digits) : Bool :=
  let (scaledNum, scaledDen) := scaleTen d.value i.den d.exponent
  if i.closed then i.low * scaledDen ≤ scaledNum && scaledNum ≤ i.high * scaledDen
  else i.low * scaledDen < scaledNum && scaledNum < i.high * scaledDen
where
  /-- The number `value * 10 ^ exponent * den` as a numerator and a denominator. -/
  scaleTen (value den : Nat) : Int → Nat × Nat
    | .ofNat n => (value * den * Nat.pow 10 n, 1)
    | .negSucc n => (value * den, Nat.pow 10 (n + 1))

/-- The nearest decimal of the interval whose last digit stands at the power of
ten `exponent`. -/
def Interval.onGrid? (i : Interval) (exponent : Int) : Option Digits :=
  let (num, den) : Nat × Nat :=
    match exponent with
    | .ofNat n => (i.value, i.den * Nat.pow 10 n)
    | .negSucc n => (i.value * Nat.pow 10 (n + 1), i.den)
  let nearer := roundRatio num den
  let other := if nearer = num / den then nearer + 1 else nearer - 1
  if i.contains ⟨nearer, exponent⟩ then some ⟨nearer, exponent⟩
  else if i.contains ⟨other, exponent⟩ then some ⟨other, exponent⟩
  else none

/-- The fewest digits that read back as a positive double.  The search starts
one place above the first digit, since a double may lie just below a power of
ten that reads back as it. -/
def shortest (x : Double) : Digits :=
  let i := x.interval
  let top := floorLog10 i.value i.den 324
  ((List.range 18).findSome? fun (n : Nat) => i.onGrid? (top + 1 - n)).getD ⟨0, 0⟩

/-- Where the decimal point may stand for digits to be written without an
exponent: at most so many places from their start, to the left and to the
right. -/
def maxLeadingZeros : Int := 4

def maxWholeDigits : Int := 16

/-- A power of ten written after the digits, always with its sign. -/
def exponentText : Int → String
  | .ofNat n => "e+" ++ toString n
  | .negSucc n => "e-" ++ toString (n + 1)

/-- Digits written out. -/
def Digits.text (d : Digits) : String :=
  let digits := Nat.toDigits 10 d.value
  let point : Int := digits.length + d.exponent
  let zeros (n : Int) : List Char := List.replicate n.toNat '0'
  if 0 ≤ d.exponent ∧ point ≤ maxWholeDigits then
    String.ofList (digits ++ zeros d.exponent ++ ['.', '0'])
  else if 0 < point ∧ point ≤ maxWholeDigits then
    String.ofList (digits.take point.toNat ++ '.' :: digits.drop point.toNat)
  else if -maxLeadingZeros ≤ point ∧ point ≤ 0 then
    String.ofList ('0' :: '.' :: zeros (-point) ++ digits)
  else
    let fraction := digits.drop 1
    String.ofList (digits.take 1 ++ if fraction.isEmpty then [] else '.' :: fraction)
      ++ exponentText (point - 1)

/-- The shortest text that reads back as the double. -/
def Double.text (negative : Bool) (x : Double) : String :=
  (if negative then "-" else "") ++ if x.mantissa = 0 then "0.0" else (shortest x).text

end SqlTemplate.Decimal
