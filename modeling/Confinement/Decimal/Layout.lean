import Confinement.Decimal.Basic

/-!
# Laying out decimals

Which digits a number shows is one question, how they are laid out another. A `Layout` holds
the decisions : how small and how large a number may be to be written positionally, and
whether a whole number still shows a fractional digit. Everything else is scientific :
one digit, the rest after a point, and a signed exponent of at least two digits.
-/

namespace Confinement

namespace Decimal

/-- The decisions on how digits are written. -/
structure Layout where
  /-- The least power of ten of the leading digit that is written positionally. -/
  positionalFrom : Int
  /-- The least greater one that is written with an exponent again. -/
  scientificFrom : Int
  /-- Whether a whole number in positional form ends in `.0`. -/
  pointZero : Bool

/-- `count` zeros. -/
def zeros (count : Int) : List Char :=
  List.replicate count.toNat '0'

/-- An exponent with its sign and at least two digits. -/
def exponentText (e : Int) : List Char :=
  let digits := digitsOf e.natAbs
  'e' :: (if e < 0 then '-' else '+') :: zeros (2 - digits.length) ++ digits

/-- Digits with a point after the first. -/
def scientificText (digits : List Char) (e : Int) : List Char :=
  let rest := digits.drop 1
  digits.take 1 ++ (if rest.isEmpty then [] else '.' :: rest) ++ exponentText e

/-- Digits with the point after the first `point` of them, filled up with zeros on the side
that falls short. -/
def positionalText (digits : List Char) (point : Int) (pointZero : Bool) : List Char :=
  if point ≤ 0 then '0' :: '.' :: zeros (-point) ++ digits
  else if digits.length ≤ point.toNat then
    digits ++ zeros (point - digits.length) ++ (if pointZero then ['.', '0'] else [])
  else digits.take point.toNat ++ '.' :: digits.drop point.toNat

/-- The text of a decimal without trailing zeros. -/
def Layout.text (layout : Layout) (negative : Bool) (d : Decimal) : String :=
  let digits := digitsOf d.digits
  let e := d.leading
  let body :=
    if layout.positionalFrom ≤ e ∧ e < layout.scientificFrom then
      positionalText digits (e + 1) layout.pointZero
    else scientificText digits e
  String.ofList (if negative then '-' :: body else body)

end Decimal

end Confinement
