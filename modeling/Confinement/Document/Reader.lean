import Confinement.Document.Basic

/-!
# Reading documents

A document is written in the notation of JSON : `Token.scan?` cuts the text into tokens,
`Document.read?` puts them together. A number with a point or an exponent is a double, any
other a whole number of any size. The words `NaN`, `Infinity` and `-Infinity` stand for the
doubles that no digits write. In a mapping the last value under a key counts.
-/

namespace Confinement

/-- A token of a written document. -/
inductive Token where
  /-- An opening brace. -/
  | openMapping
  /-- A closing brace. -/
  | closeMapping
  /-- An opening bracket. -/
  | openList
  /-- A closing bracket. -/
  | closeList
  /-- A colon. -/
  | colon
  /-- A comma. -/
  | comma
  /-- A text between quotes. -/
  | text (value : String)
  /-- Any other value. -/
  | scalar (value : Document)

namespace Token

/-- The value of a hexadecimal digit. -/
def hexValue? (c : Char) : Option Nat :=
  if c.isDigit then some (c.toNat - '0'.toNat)
  else if 'a' ≤ c ∧ c ≤ 'f' then some (c.toNat - 'a'.toNat + 10)
  else if 'A' ≤ c ∧ c ≤ 'F' then some (c.toNat - 'A'.toNat + 10)
  else none

/-- The number that hexadecimal digits write. -/
def hexNumber? (cs : List Char) : Option Nat :=
  cs.foldlM (fun n c => (hexValue? c).map (16 * n + ·)) 0

/-- The character of a one-letter escape. -/
def escaped? (c : Char) : Option Char :=
  if c = '"' || c = '\\' || c = '/' then some c
  else if c = 'n' then some '\n'
  else if c = 't' then some '\t'
  else if c = 'r' then some '\r'
  else if c = 'b' then some '\x08'
  else if c = 'f' then some '\x0c'
  else none

/-- The code points up to the closing quote, surrogates still apart, and what follows it. -/
def codes? : List Char → Option (List Nat × List Char)
  | [] => none
  | '"' :: rest => some ([], rest)
  | '\\' :: 'u' :: a :: b :: c :: d :: rest => do
    let code ← hexNumber? [a, b, c, d]
    let (codes, rest) ← codes? rest
    return (code :: codes, rest)
  | '\\' :: c :: rest => do
    let c ← escaped? c
    let (codes, rest) ← codes? rest
    return (c.toNat :: codes, rest)
  | c :: rest => do
    let (codes, rest) ← codes? rest
    return (c.toNat :: codes, rest)

/-- The characters of code points. Two surrogates in a row make one character, a lone one has
none and is replaced. -/
def joinSurrogates : List Nat → List Char
  | [] => []
  | [code] => [if 0xD800 ≤ code ∧ code < 0xE000 then '\uFFFD' else Char.ofNat code]
  | high :: low :: rest =>
    if 0xD800 ≤ high ∧ high < 0xDC00 ∧ 0xDC00 ≤ low ∧ low < 0xE000 then
      Char.ofNat (0x10000 + (high - 0xD800) * 0x400 + (low - 0xDC00)) :: joinSurrogates rest
    else
      (if 0xD800 ≤ high ∧ high < 0xE000 then '\uFFFD' else Char.ofNat high) ::
        joinSurrogates (low :: rest)

/-- Whether a character can be part of a number or of a word. -/
def isWordPart (c : Char) : Bool :=
  c.isAlphanum || c == '+' || c == '-' || c == '.'

/-- The value of a number or a word. -/
def scalar? (cs : List Char) : Option Document :=
  if cs = "null".toList then some .null
  else if cs = "true".toList then some (.bool true)
  else if cs = "false".toList then some (.bool false)
  else if cs = "NaN".toList then some (.real (0.0 / 0.0))
  else if cs = "Infinity".toList then some (.real (1.0 / 0.0))
  else if cs = "-Infinity".toList then some (.real (-1.0 / 0.0))
  else if cs.any fun c => c == '.' || c == 'e' || c == 'E' then
    let (negative, body) := Decimal.takeSign cs
    (Decimal.unsigned? body).map fun d => .real (d.toFloat negative)
  else
    let (negative, digits) := Decimal.takeSign cs
    if digits.isEmpty || !digits.all Char.isDigit then none
    else
      let n : Int := Decimal.ofDigits digits
      some (.int (if negative then -n else n))

/-- The first token, and what follows it. -/
def first? : List Char → Option (Token × List Char)
  | [] => none
  | '\x7b' :: rest => some (.openMapping, rest)
  | '\x7d' :: rest => some (.closeMapping, rest)
  | '[' :: rest => some (.openList, rest)
  | ']' :: rest => some (.closeList, rest)
  | ':' :: rest => some (.colon, rest)
  | ',' :: rest => some (.comma, rest)
  | '"' :: rest => do
    let (codes, rest) ← codes? rest
    return (.text (String.ofList (joinSurrogates codes)), rest)
  | cs => do
    let value ← scalar? (cs.takeWhile isWordPart)
    return (.scalar value, cs.dropWhile isWordPart)

/-- Up to `count` tokens, with white space between them. -/
def scanUpTo : Nat → List Char → Option (List Token)
  | 0, cs => if cs.all Char.isWhitespace then some [] else none
  | count + 1, cs =>
    let cs := cs.dropWhile Char.isWhitespace
    if cs.isEmpty then some []
    else do
      let (token, rest) ← first? cs
      let tokens ← scanUpTo count rest
      return token :: tokens

/-- The tokens of a text. Each takes at least one character. -/
def scan? (s : String) : Option (List Token) :=
  let cs := s.toList
  scanUpTo cs.length cs

end Token

namespace Document

mutual

/-- A document at the start of the tokens, read in at most `steps` steps, and what follows. -/
def value? : Nat → List Token → Option (Document × List Token)
  | 0, _ => none
  | steps + 1, tokens =>
    match tokens with
    | .text value :: rest => some (.text value, rest)
    | .scalar value :: rest => some (value, rest)
    | .openList :: .closeList :: rest => some (.list [], rest)
    | .openList :: rest => itemsFrom? steps [] rest
    | .openMapping :: .closeMapping :: rest => some (.mapping [], rest)
    | .openMapping :: rest => entriesFrom? steps [] rest
    | _ => none

/-- The rest of a list, after the items `done` in reverse. -/
def itemsFrom? : Nat → List Document → List Token → Option (Document × List Token)
  | 0, _, _ => none
  | steps + 1, done, tokens =>
    match value? steps tokens with
    | some (item, .comma :: rest) => itemsFrom? steps (item :: done) rest
    | some (item, .closeList :: rest) => some (.list (item :: done).reverse, rest)
    | _ => none

/-- The rest of a mapping, after the entries `done`. -/
def entriesFrom? : Nat → List (String × Document) → List Token → Option (Document × List Token)
  | 0, _, _ => none
  | steps + 1, done, tokens =>
    match tokens with
    | .text key :: .colon :: rest =>
      match value? steps rest with
      | some (value, .comma :: rest) => entriesFrom? steps (put key value done) rest
      | some (value, .closeMapping :: rest) => some (.mapping (put key value done), rest)
      | _ => none
    | _ => none

end

/-- The document that a text writes. Every step but those into a list or a mapping takes a
token, and each of those follows one that does. -/
def read? (s : String) : Option Document := do
  let tokens ← Token.scan? s
  match value? (2 * tokens.length) tokens with
  | some (document, []) => some document
  | _ => none

end Document

end Confinement
