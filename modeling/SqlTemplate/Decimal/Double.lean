/-!
# Binary floating point

Double-precision numbers as exact values: a mantissa below `2 ^ 53` times a
power of two.  `nearest?` rounds a ratio to the nearest of them, a half to the
even mantissa.
-/

namespace SqlTemplate.Decimal

/-- The number `mantissa * 2 ^ power`. -/
structure Double where
  mantissa : Nat
  power : Int
deriving DecidableEq, Repr

/-- A ratio rounded to a whole number, a half to the even one. -/
def roundRatio (num den : Nat) : Nat :=
  let quotient := num / den
  let twice := 2 * (num % den)
  if twice < den then quotient
  else if den < twice then quotient + 1
  else quotient + quotient % 2

/-- The ratio `num / den` divided by `2 ^ power`, as a numerator and a
denominator. -/
def scaleDown (num den : Nat) : Int → Nat × Nat
  | .ofNat n => (num, den * Nat.pow 2 n)
  | .negSucc n => (num * Nat.pow 2 (n + 1), den)

/-- The greatest `k` with `2 ^ k ≤ num / den`, for a positive ratio. -/
def floorLog2 (num den : Nat) : Int :=
  let guess : Int := num.log2 - den.log2
  let (scaledNum, scaledDen) := scaleDown num den guess
  if scaledNum < scaledDen then guess - 1 else guess

namespace Double

def zero : Double := ⟨0, 0⟩

/-- The first natural number with more than 53 binary digits. -/
def mantissaBound : Nat := 0x20000000000000

/-- The smallest power of two that a number can have. -/
def minPower : Int := -1074

/-- The greatest power of two that a number can have. -/
def maxPower : Int := 971

/-- The double nearest to a ratio; `none` if the ratio is beyond all doubles. -/
def nearest? (num den : Nat) : Option Double :=
  if num = 0 then some zero
  else
    let power := max minPower (floorLog2 num den - 52)
    let (scaledNum, scaledDen) := scaleDown num den power
    let mantissa := roundRatio scaledNum scaledDen
    let result : Double :=
      if mantissa < mantissaBound then ⟨mantissa, power⟩ else ⟨mantissa / 2, power + 1⟩
    if maxPower < result.power then none else some result

/-- The number as a numerator and a denominator. -/
def ratio (x : Double) : Nat × Nat := scaleDown x.mantissa 1 (-x.power)

def mul? (x y : Double) : Option Double :=
  nearest? (x.ratio.1 * y.ratio.1) (x.ratio.2 * y.ratio.2)

def div? (x y : Double) : Option Double :=
  nearest? (x.ratio.1 * y.ratio.2) (x.ratio.2 * y.ratio.1)

end Double

/-- The power of ten as the nearest double. -/
def powerOfTen (n : Nat) : Double := (Double.nearest? (Nat.pow 10 n) 1).getD .zero

/-- The greatest power of ten that is a double. -/
def maxPowerOfTen : Nat := 308

/-- The number divided by a power of ten, in steps of the greatest one. -/
def Double.shrink (x : Double) (places : Nat) : Double :=
  if places ≤ maxPowerOfTen then (x.div? (powerOfTen places)).getD .zero
  else if x.mantissa = 0 then x
  else ((x.div? (powerOfTen maxPowerOfTen)).getD .zero).shrink (places - maxPowerOfTen)
termination_by places
decreasing_by
  have : 0 < maxPowerOfTen := by decide
  omega

/-- The number `significand * 10 ^ exponent`, rounded once for the significand
and once for each multiplication or division; `none` if it is beyond all
doubles. -/
def Double.ofDecimal? (significand : Nat) (exponent : Int) : Option Double := do
  let x ← nearest? significand 1
  match exponent with
  | .ofNat n =>
    if n ≤ maxPowerOfTen then x.mul? (powerOfTen n)
    else if x.mantissa = 0 then some x
    else none
  | .negSucc n => some (x.shrink (n + 1))

end SqlTemplate.Decimal
