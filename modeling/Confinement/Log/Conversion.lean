import Confinement.Decimal.Style
import Confinement.Number
import Confinement.Text.Quoted

/-!
# Conversions

A field of a template says how its value is written : with flags, a least width and a
precision, and in the way that a letter stands for. Texts, whole numbers and doubles each
suit some letters and not others, so `Conversion.write?` may have no answer.
-/

namespace Confinement

namespace Template

/-- A value of a field. -/
inductive Value where
  /-- A text. -/
  | text (value : String)
  /-- A whole number. -/
  | int (value : Int)
  /-- A double. -/
  | real (value : Float)
  /-- A value that can only be shown. -/
  | shown (value : String)

namespace Value

/-- The text of a value. -/
def display : Value → String
  | .text value => value
  | .int value => Int.repr value
  | .real value => Number.textOfFloat value
  | .shown value => value

/-- The text of a value inside a message. -/
def quoted : Value → String
  | .text value => Text.quoted value
  | v => v.display

/-- The text of a value inside a message, in ASCII. -/
def quotedAscii (v : Value) : String :=
  Text.ascii v.quoted

/-- The whole number of a value, without what follows the point. -/
def whole? : Value → Option Int
  | .int value => some value
  | .real value =>
    match Binary.ofFloat value with
    | .finite negative m e =>
      let size := Binary.floor false m e
      some (if negative then -size else size)
    | _ => none
  | _ => none

/-- The double of a value. -/
def float? : Value → Option Float
  | .int value => (Number.floatOfInt value).toOption
  | .real value => some value
  | _ => none

/-- The single character of a value : of a text, or the one with a number. -/
def character? : Value → Option Char
  | .text value =>
    match value.toList with
    | [c] => some c
    | _ => none
  | .int value =>
    if h : 0 ≤ value ∧ value.toNat.isValidChar then some (Char.ofNatAux value.toNat h.2) else none
  | _ => none

end Value

/-- How a value is written. -/
structure Conversion where
  /-- The flags. -/
  flags : List Char
  /-- The least width. -/
  width : Nat
  /-- The precision, if one is given. -/
  precision : Option Nat
  /-- The letter that says how the value is written. -/
  letter : Char
  deriving DecidableEq, Repr

/-- A number taken apart. -/
structure Numeral where
  /-- Whether it has a minus sign. -/
  isNegative : Bool
  /-- What stands between the sign and the digits. -/
  marker : List Char
  /-- The digits, with a point and an exponent if there are any. -/
  digits : List Char
  deriving DecidableEq, Repr

namespace Conversion

/-- Whether a flag is set. -/
def has (c : Conversion) (flag : Char) : Bool :=
  c.flags.contains flag

/-- The characters filled up with blanks to the width, on the left unless a flag says else. -/
def pad (c : Conversion) (cs : List Char) : List Char :=
  let blanks := List.replicate (c.width - cs.length) ' '
  if c.has '-' then cs ++ blanks else blanks ++ cs

/-- A text, cut to the precision and filled up to the width. -/
def writeText (c : Conversion) (s : String) : List Char :=
  c.pad (match c.precision with
    | some n => s.toList.take n
    | none => s.toList)

/-- The sign of a number. -/
def sign (c : Conversion) (isNegative : Bool) : List Char :=
  if isNegative then ['-'] else if c.has '+' then ['+'] else if c.has ' ' then [' '] else []

/-- A number, filled up to the width with zeros before its digits where a flag says so. -/
def writeNumeral (c : Conversion) (n : Numeral) : List Char :=
  let front := c.sign n.isNegative ++ n.marker
  if c.has '0' && !c.has '-' then
    front ++ List.replicate (c.width - front.length - n.digits.length) '0' ++ n.digits
  else c.pad (front ++ n.digits)

/-- A whole number in some base, with as many digits as the precision asks for. The base is
marked where a flag says so. -/
def integer (c : Conversion) (base : Nat) (marker : List Char) (i : Int) : Numeral :=
  let digits := Nat.toDigits base i.natAbs
  ⟨decide (i < 0), if c.has '#' then marker else [],
    List.replicate (c.precision.getD 0 - digits.length) '0' ++ digits⟩

/-- A double in some style, with six places where no precision is given. -/
def real (c : Conversion) (style : Decimal.Style) (x : Float) : Numeral :=
  match Binary.ofFloat x with
  | .nan => ⟨false, [], "nan".toList⟩
  | .infinity negative => ⟨negative, [], "inf".toList⟩
  | .finite negative m e =>
    let (num, den) := Binary.ratio m e
    ⟨negative, [], style.text (c.has '#') num den (c.precision.getD 6)⟩

/-- A number with its letters in capitals. -/
def capitals (n : Numeral) : Numeral :=
  ⟨n.isNegative, n.marker.map Char.toUpper, n.digits.map Char.toUpper⟩

/-- The number that a letter makes of a value, if the letter is one for numbers and the value
suits it. -/
def numeral? (c : Conversion) (v : Value) : Option Numeral :=
  let onBits (base : Nat) (marker : String) : Option Numeral :=
    match v with
    | .int i => some (c.integer base marker.toList i)
    | _ => none
  let onReal (style : Decimal.Style) : Option Numeral := v.float?.map (c.real style)
  match c.letter with
  | 'd' => v.whole?.map (c.integer 10 [])
  | 'i' => v.whole?.map (c.integer 10 [])
  | 'u' => v.whole?.map (c.integer 10 [])
  | 'o' => onBits 8 "0o"
  | 'x' => onBits 16 "0x"
  | 'X' => (onBits 16 "0x").map capitals
  | 'e' => onReal .scientific
  | 'E' => (onReal .scientific).map capitals
  | 'f' => onReal .fixed
  | 'F' => (onReal .fixed).map capitals
  | 'g' => onReal .general
  | 'G' => (onReal .general).map capitals
  | _ => none

/-- A value as a conversion writes it. -/
def write? (c : Conversion) (v : Value) : Option (List Char) :=
  match c.letter with
  | 's' => some (c.writeText v.display)
  | 'r' => some (c.writeText v.quoted)
  | 'a' => some (c.writeText v.quotedAscii)
  | 'c' => v.character?.map fun ch => c.pad [ch]
  | _ => (c.numeral? v).map c.writeNumeral

end Conversion

end Template

end Confinement
