/-!
# White space

The characters of the Unicode property White_Space, with the four ASCII separators beside
them. Texts are trimmed of them at both ends. Numbers are read with a narrower set
(`isBlank`), which leaves out the separators.
-/

namespace Confinement

namespace Text

/-- The ASCII separators for files, groups, records and units. -/
def isSeparator (c : Char) : Bool :=
  decide (0x1C ≤ c.val ∧ c.val ≤ 0x1F)

/-- White space around a number : tab to carriage return, the blank, and what Unicode calls
white space beyond ASCII. -/
def isBlank (c : Char) : Bool :=
  decide (0x09 ≤ c.val ∧ c.val ≤ 0x0D) || c.val == 0x20 || c.val == 0x85 || c.val == 0xA0 ||
    c.val == 0x1680 || decide (0x2000 ≤ c.val ∧ c.val ≤ 0x200A) || c.val == 0x2028 ||
    c.val == 0x2029 || c.val == 0x202F || c.val == 0x205F || c.val == 0x3000

/-- White space around any text. -/
def isSpace (c : Char) : Bool :=
  isBlank c || isSeparator c

/-- The characters without those at either end that satisfy `test`. -/
def trimBy (test : Char → Bool) (cs : List Char) : List Char :=
  ((cs.dropWhile test).reverse.dropWhile test).reverse

/-- The text without white space at its ends. -/
def trim (s : String) : String :=
  String.ofList (trimBy isSpace s.toList)

end Text

end Confinement
