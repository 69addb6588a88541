/-!
# Letter case

Names are compared without regard to case. All of them are spelled in ASCII letters, so a
case map has to be right only where its result is such a name. Towards small letters that is
ASCII itself. Towards capitals two further letters lead into ASCII : the dotless i, whose
capital is `I`, and the long s, whose capital is `S`.
-/

namespace Confinement

namespace Text

/-- The text in small letters, for comparison with an ASCII name. -/
def lower (s : String) : String :=
  String.ofList (s.toList.map Char.toLower)

/-- The capital of a letter, for comparison with an ASCII name. -/
def capital (c : Char) : Char :=
  if c.val = 0x131 then 'I'
  else if c.val = 0x17F then 'S'
  else c.toUpper

/-- The text in capitals, for comparison with an ASCII name. -/
def upper (s : String) : String :=
  String.ofList (s.toList.map capital)

end Text

end Confinement
