/-!
# Lines

A line ends at a line feed, at one of the other vertical controls and ASCII separators, or at
one of the line ends that Unicode has beyond ASCII; a carriage return and the line feed behind
it end one line together. What follows the last line end is a line if there is anything
(`Text.lines`).
-/

namespace Confinement

namespace Text

/-- Whether a character ends a line : line feed to carriage return, the separators for files,
groups and records, the next line control, and the separators for lines and paragraphs. -/
def endsLine (c : Char) : Bool :=
  decide (0x0A ≤ c.val ∧ c.val ≤ 0x0D) || decide (0x1C ≤ c.val ∧ c.val ≤ 0x1E) ||
    c.val == 0x85 || c.val == 0x2028 || c.val == 0x2029

/-- The lines of the characters, without what ends them. -/
def linesOf : List Char → List (List Char)
  | [] => []
  | '\r' :: '\n' :: rest => [] :: linesOf rest
  | c :: rest =>
    if endsLine c then [] :: linesOf rest
    else
      match linesOf rest with
      | [] => [[c]]
      | line :: others => (c :: line) :: others

/-- The lines of a text, without what ends them. -/
def lines (s : String) : List String :=
  (linesOf s.toList).map String.ofList

/-- The text that has these texts in it, each with a line feed behind it. -/
def printed (texts : List String) : String :=
  String.join (texts.map fun text => text ++ "\n")

end Text

end Confinement
