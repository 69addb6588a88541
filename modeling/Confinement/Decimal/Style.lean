import Confinement.Decimal.Layout

/-!
# Numbers with given places

Beside the text that reads back, numbers are written with so many places : after the point
(`fixed`), after the first digit and with an exponent (`scientific`), or so many significant
digits in whichever of the two forms suits the size (`general`), without trailing zeros. The
point, and in the general form the trailing zeros, are kept on request.
-/

namespace Confinement

namespace Decimal

/-- How a number is written with given places. -/
inductive Style where
  /-- Positionally, with so many places after the point. -/
  | fixed
  /-- With an exponent, and so many places after the first digit. -/
  | scientific
  /-- With so many significant digits. -/
  | general
  deriving DecidableEq, Repr

/-- The decimal of exactly `places` significant digits nearest to `num / den`, a tie to the
even digit. -/
def rounded (num den places : Nat) : Decimal :=
  if num = 0 then ⟨0, 0⟩
  else
    let exponent := magnitude num den - places
    let (n, d) := onGrid num den exponent
    let digits := Binary.roundEven n d
    if digitCount digits ≤ places then ⟨digits, exponent⟩ else ⟨digits / 10, exponent + 1⟩

/-- A point with what follows it. Without anything it is left out unless it is to be kept. -/
def afterPoint (keepPoint : Bool) (places : List Char) : List Char :=
  if places.isEmpty && !keepPoint then [] else '.' :: places

/-- `num / den` with `places` places after the point. -/
def fixedText (keepPoint : Bool) (num den places : Nat) : List Char :=
  let digits := digitsOf (Binary.roundEven (num * Nat.pow 10 places) den)
  let digits := List.replicate (places + 1 - digits.length) '0' ++ digits
  let whole := digits.length - places
  digits.take whole ++ afterPoint keepPoint (digits.drop whole)

/-- `num / den` with one digit, `places` places after it and an exponent. -/
def exponentialText (keepPoint : Bool) (num den places : Nat) : List Char :=
  let d := rounded num den (places + 1)
  let digits := digitsOf d.digits
  let digits := digits ++ List.replicate (places + 1 - digits.length) '0'
  digits.take 1 ++ afterPoint keepPoint (digits.drop 1) ++ exponentText d.leading

/-- `num / den` with `places` significant digits, at least one, in positional form from
0.0001 to below `10 ^ places`. -/
def generalText (keepPoint : Bool) (num den places : Nat) : List Char :=
  let places := if places = 0 then 1 else places
  let d := rounded num den places
  if !keepPoint then (Layout.text ⟨-4, places, false⟩ false (strip d)).toList
  else if -4 ≤ d.leading ∧ d.leading < places then
    fixedText true num den ((places : Int) - 1 - d.leading).toNat
  else exponentialText true num den (places - 1)

/-- `num / den` in a style. -/
def Style.text : Style → Bool → Nat → Nat → Nat → List Char
  | .fixed => fixedText
  | .scientific => exponentialText
  | .general => generalText

end Decimal

end Confinement
