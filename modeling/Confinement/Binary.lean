/-!
# Binary floating point, exactly

A finite double is a whole number times a power of two. `Binary.ofFloat` reads that pair
off the bits, `Binary.fraction` writes it as a quotient of whole numbers, and `Binary.round?`
goes back : the double nearest to a quotient, a tie to the even significand, nothing beyond
the range. On the quotient a double is compared with a whole number (`Binary.lessInt`, ...)
and brought down to one (`Binary.floor`) with no rounding at all.
-/

namespace Confinement

/-- What the bits of a double stand for. -/
inductive Binary where
  /-- Not a number. -/
  | nan
  /-- An infinity, with its sign. -/
  | infinity (negative : Bool)
  /-- `significand * 2 ^ exponent`, with its sign. -/
  | finite (negative : Bool) (significand : Nat) (exponent : Int)
  deriving DecidableEq, Repr

namespace Binary

/-! ## Reading the bits -/

/-- The sign is bit 63, the exponent field the 11 bits below it, the fraction the rest. A
zero exponent field stands for the same power of two as one, without the leading bit. -/
def ofBits (bits : Nat) : Binary :=
  let negative := bits / Nat.pow 2 63 % 2 == 1
  let field : Nat := bits / Nat.pow 2 52 % Nat.pow 2 11
  let low : Nat := bits % Nat.pow 2 52
  if field = 2047 then
    if low = 0 then .infinity negative else .nan
  else if field = 0 then .finite negative low (-1074)
  else .finite negative (Nat.pow 2 52 + low) ((field : Int) - 1075)

/-- What a double stands for. -/
def ofFloat (x : Float) : Binary :=
  ofBits x.toBits.toNat

/-! ## Quotients -/

/-- `significand * 2 ^ exponent` as a numerator and a positive denominator. -/
def ratio (significand : Nat) (exponent : Int) : Nat × Nat :=
  if exponent < 0 then (significand, Nat.pow 2 (-exponent).toNat)
  else (significand * Nat.pow 2 exponent.toNat, 1)

/-- A finite value as a signed numerator and a positive denominator. -/
def fraction (negative : Bool) (significand : Nat) (exponent : Int) : Int × Nat :=
  let (num, den) := ratio significand exponent
  (if negative then -(num : Int) else num, den)

/-- `num / den` to the nearest whole number, a tie to the even one. -/
def roundEven (num den : Nat) : Nat :=
  let quotient := num / den
  let rest := num % den
  if 2 * rest < den then quotient
  else if den < 2 * rest then quotient + 1
  else quotient + quotient % 2

/-- `num / den / 2 ^ exponent` as a quotient. -/
def scaled (num den : Nat) (exponent : Int) : Nat × Nat :=
  if exponent < 0 then (num * Nat.pow 2 (-exponent).toNat, den)
  else (num, den * Nat.pow 2 exponent.toNat)

/-- The bits of the double nearest to a positive `num / den`. The exponent is the one that
leaves 53 bits before the point, and no less than -1074. A significand that rounds up to
the next power of two carries into the exponent field. -/
def roundBits (num den : Nat) : Nat :=
  let guess : Int := (num.log2 : Int) - den.log2 - 53
  let start : Int := if guess < -1074 then -1074 else guess
  let (n, d) := scaled num den start
  let exponent := if n / d < Nat.pow 2 53 then start else start + 1
  let (n, d) := scaled num den exponent
  (exponent + 1074).toNat * Nat.pow 2 52 + roundEven n d

/-- The double nearest to `num / den`, or nothing where it would lie beyond the largest
finite one. -/
def round? (negative : Bool) (num den : Nat) : Option Float :=
  let bits := if num = 0 then 0 else roundBits num den
  if bits < 2047 * Nat.pow 2 52 then
    some (Float.ofBits (UInt64.ofNat (bits + if negative then Nat.pow 2 63 else 0)))
  else none

/-! ## Beside whole numbers -/

/-- Whether the value lies strictly below the whole number. -/
def lessInt : Binary → Int → Bool
  | .nan, _ => false
  | .infinity negative, _ => negative
  | .finite negative m e, i =>
    let (num, den) := fraction negative m e
    decide (num < i * den)

/-- Whether the value lies strictly above the whole number. -/
def greaterInt : Binary → Int → Bool
  | .nan, _ => false
  | .infinity negative, _ => !negative
  | .finite negative m e, i =>
    let (num, den) := fraction negative m e
    decide (i * den < num)

/-- Whether the value is the whole number. -/
def equalsInt : Binary → Int → Bool
  | .nan, _ => false
  | .infinity _, _ => false
  | .finite negative m e, i =>
    let (num, den) := fraction negative m e
    decide (num = i * den)

/-- The greatest whole number not above a finite value. -/
def floor (negative : Bool) (significand : Nat) (exponent : Int) : Int :=
  let (num, den) := fraction negative significand exponent
  Int.fdiv num den

end Binary

end Confinement
