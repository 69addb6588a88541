import Confinement.Binary

/-!
# Decimals

A decimal is a whole number times a power of ten. A positive quotient is placed among the
powers of ten (`Decimal.magnitude`) and brought onto a grid of so many significant digits,
either downwards (`Decimal.gridBelow`) or to the nearest point (`Decimal.significant`).
-/

namespace Confinement

/-- `digits * 10 ^ exponent`. -/
structure Decimal where
  /-- The digits, as one whole number. -/
  digits : Nat
  /-- The power of ten. -/
  exponent : Int
  deriving DecidableEq, Repr

namespace Decimal

/-- The digits of a whole number, the leading one first. -/
def digitsOf (n : Nat) : List Char :=
  Nat.toDigits 10 n

/-- How many digits a whole number has. -/
def digitCount (n : Nat) : Nat :=
  (digitsOf n).length

/-- The decimal as a numerator and a positive denominator. -/
def ratio (d : Decimal) : Nat × Nat :=
  if d.exponent < 0 then (d.digits, Nat.pow 10 (-d.exponent).toNat)
  else (d.digits * Nat.pow 10 d.exponent.toNat, 1)

/-- The power of ten of the leading digit. -/
def leading (d : Decimal) : Int :=
  (digitCount d.digits : Int) - 1 + d.exponent

/-- Moves up to `count` trailing zeros of the digits into the exponent. -/
def stripUpTo : Nat → Decimal → Decimal
  | 0, d => d
  | count + 1, d =>
    if d.digits % 10 = 0 then stripUpTo count ⟨d.digits / 10, d.exponent + 1⟩ else d

/-- The same decimal without trailing zeros; zero has the exponent zero. -/
def strip (d : Decimal) : Decimal :=
  if d.digits = 0 then ⟨0, 0⟩ else stripUpTo (digitCount d.digits) d

/-- The least `k` with `num / den < 10 ^ k`, of a positive quotient. -/
def magnitude (num den : Nat) : Int :=
  if den ≤ num then digitCount (num / den)
  else 1 - (digitCount ((den - 1) / num) : Int)

/-- `num / den / 10 ^ exponent` as a quotient. -/
def onGrid (num den : Nat) (exponent : Int) : Nat × Nat :=
  if exponent < 0 then (num * Nat.pow 10 (-exponent).toNat, den)
  else (num, den * Nat.pow 10 exponent.toNat)

/-- The greatest decimal of `places` significant digits not above `num / den`. -/
def gridBelow (num den places : Nat) : Decimal :=
  let exponent := magnitude num den - places
  let (n, d) := onGrid num den exponent
  ⟨n / d, exponent⟩

/-- The decimal of `places` significant digits nearest to `num / den`, a tie to the even
digit. -/
def significant (num den places : Nat) : Decimal :=
  if num = 0 then ⟨0, 0⟩
  else
    let exponent := magnitude num den - places
    let (n, d) := onGrid num den exponent
    strip ⟨Binary.roundEven n d, exponent⟩

/-- The double nearest to a decimal, infinity beyond the range. Decimals far outside the
range of doubles are settled by the power of ten of their leading digit. -/
def toFloat (negative : Bool) (d : Decimal) : Float :=
  let infinity : Float := if negative then -(1.0 / 0.0) else 1.0 / 0.0
  let zero : Float := if negative then -0.0 else 0.0
  if d.digits = 0 then zero
  else if d.leading < -330 then zero
  else if 310 < d.leading then infinity
  else
    let (num, den) := d.ratio
    (Binary.round? negative num den).getD infinity

end Decimal

end Confinement
