import Confinement.Text.Printable

/-!
# Quoted text

A text inside a message is written between quotes : single ones, unless the text holds a
single quote and no double one. The quote in use and the backslash are escaped by a
backslash, line feed, tab and carriage return have escapes of their own, and every other
character that is not printable is written by its code point in hexadecimal.
-/

namespace Confinement

namespace Text

/-- The quote a text is written in. -/
def quoteFor (cs : List Char) : Char :=
  if cs.contains '\'' && !cs.contains '"' then '"' else '\''

/-- The last `width` hexadecimal digits of a number, with leading zeros. -/
def hexDigits (width n : Nat) : List Char :=
  let digits := Nat.toDigits 16 n
  List.replicate (width - digits.length) '0' ++ digits

/-- A character by its code point. -/
def byCode (c : Char) : List Char :=
  if c.toNat < 0x100 then '\\' :: 'x' :: hexDigits 2 c.toNat
  else if c.toNat < 0x10000 then '\\' :: 'u' :: hexDigits 4 c.toNat
  else '\\' :: 'U' :: hexDigits 8 c.toNat

/-- A character inside `quote`. -/
def escape (quote c : Char) : List Char :=
  if c = quote || c = '\\' then ['\\', c]
  else if c = '\n' then ['\\', 'n']
  else if c = '\t' then ['\\', 't']
  else if c = '\r' then ['\\', 'r']
  else if isPrintable c then [c]
  else byCode c

/-- The text between quotes. -/
def quoted (s : String) : String :=
  let cs := s.toList
  let quote := quoteFor cs
  String.ofList (quote :: cs.flatMap (escape quote) ++ [quote])

/-- The text with every character beyond ASCII by its code point. -/
def ascii (s : String) : String :=
  String.ofList (s.toList.flatMap fun c => if c.toNat < 0x80 then [c] else byCode c)

end Text

end Confinement
