import Confinement.Decimal.Basic

/-!
# The shortest decimal of a double

Many decimals round to the same double. The text of a double is the one with the fewest
digits, and of those the nearest to the double's exact value. For one digit, two digits and
so on, only the two neighbours of the value on the grid of that many digits need a look :
if any point of the grid rounds to the double, one of them does.
-/

namespace Confinement

namespace Decimal

/-- Whether the decimal rounds to the double with these bits. -/
def readsBack (bits : UInt64) (d : Decimal) : Bool :=
  let (num, den) := d.ratio
  match Binary.round? false num den with
  | some x => x.toBits == bits
  | none => false

/-- The neighbour of `num / den` on the grid of `places` digits that passes `test`; of two
the nearer, and on a tie the one with the even digit. -/
def neighbour? (test : Decimal → Bool) (num den places : Nat) : Option Decimal :=
  let below := gridBelow num den places
  let above : Decimal := ⟨below.digits + 1, below.exponent⟩
  match test below, test above with
  | true, true =>
    let (n, d) := onGrid num den below.exponent
    let middle := (2 * below.digits + 1) * d
    if 2 * n < middle then some below
    else if middle < 2 * n then some above
    else if below.digits % 2 = 0 then some below
    else some above
  | true, false => some below
  | false, true => some above
  | false, false => none

/-- `significand * 2 ^ exponent` with all its digits. -/
def exact (significand : Nat) (exponent : Int) : Decimal :=
  if exponent < 0 then ⟨significand * Nat.pow 5 (-exponent).toNat, exponent⟩
  else ⟨significand * Nat.pow 2 exponent.toNat, 0⟩

/-- The fewest digits that read back to the positive double `significand * 2 ^ exponent`
with these bits. Seventeen digits always do. -/
def shortest (bits : UInt64) (significand : Nat) (exponent : Int) : Decimal :=
  let (num, den) := Binary.ratio significand exponent
  let found := (List.range 17).findSome? fun i => neighbour? (readsBack bits) num den (i + 1)
  strip (found.getD (exact significand exponent))

end Decimal

end Confinement
