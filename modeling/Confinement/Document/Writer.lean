import Confinement.Document.Basic

/-!
# Writing documents

Documents are written in the notation in which they are read, in one line. A double that is
no finite number has no number in that notation and is written as a text.
-/

namespace Confinement

namespace Document

/-- A character between double quotes. -/
def writtenChar (c : Char) : List Char :=
  if c = '"' || c = '\\' then ['\\', c]
  else if c.toNat < 0x20 then '\\' :: 'u' :: Text.hexDigits 4 c.toNat
  else [c]

/-- A text between double quotes. -/
def writtenText (s : String) : String :=
  String.ofList ('"' :: s.toList.flatMap writtenChar ++ ['"'])

/-- A double, as a text where it is no finite number. -/
def writtenFloat (x : Float) : String :=
  if x.isFinite then Number.textOfFloat x else writtenText (Number.textOfFloat x)

mutual

/-- The document in one line. -/
def write : Document → String
  | .null => "null"
  | .bool value => if value then "true" else "false"
  | .int value => toString value
  | .real value => writtenFloat value
  | .text value => writtenText value
  | .list items => "[" ++ commas (writeItems items) ++ "]"
  | .mapping entries => "\x7b" ++ commas (writeEntries entries) ++ "\x7d"

/-- The items of a list. -/
def writeItems : List Document → List String
  | [] => []
  | item :: rest => write item :: writeItems rest

/-- The entries of a mapping. -/
def writeEntries : List (String × Document) → List String
  | [] => []
  | (key, value) :: rest => (writtenText key ++ ": " ++ write value) :: writeEntries rest

end

end Document

end Confinement
