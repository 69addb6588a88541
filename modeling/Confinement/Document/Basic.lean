import Confinement.Decimal.Literal
import Confinement.Number
import Confinement.Text.Quoted

/-!
# Documents

Configuration and regions are written down as documents : nested lists and mappings of texts,
numbers, truth values and nothing. A whole number and a double are different values even
where they are equal, and a mapping keeps its entries in order.
-/

namespace Confinement

/-- A parsed document. -/
inductive Document where
  /-- Nothing. -/
  | null
  /-- A truth value. -/
  | bool (value : Bool)
  /-- A whole number. -/
  | int (value : Int)
  /-- A double. -/
  | real (value : Float)
  /-- A text. -/
  | text (value : String)
  /-- Values in a row. -/
  | list (items : List Document)
  /-- Values under keys, in order. -/
  | mapping (entries : List (String × Document))

namespace Document

/-- The name of a kind of document in messages. -/
def kind : Document → String
  | .null => "NoneType"
  | .bool _ => "bool"
  | .int _ => "int"
  | .real _ => "float"
  | .text _ => "str"
  | .list _ => "list"
  | .mapping _ => "dict"

/-- Whether a document stands for an absent one : nothing, false, zero, or without content. -/
def isVoid : Document → Bool
  | .null => true
  | .bool value => !value
  | .int value => value == 0
  | .real value => value == 0
  | .text value => value.isEmpty
  | .list items => items.isEmpty
  | .mapping entries => entries.isEmpty

/-- The value under a key. -/
def find? (key : String) (entries : List (String × Document)) : Option Document :=
  (entries.find? fun e => e.1 == key).map (·.2)

/-- The entries with a value under a key. A new key goes to the end, a present one keeps its
place. -/
def put (key : String) (value : Document) : List (String × Document) → List (String × Document)
  | [] => [(key, value)]
  | e :: rest => if e.1 == key then (key, value) :: rest else e :: put key value rest

/-- Texts with a comma between them. -/
def commas (texts : List String) : String :=
  ", ".intercalate texts

mutual

/-- A document inside a message, with texts in quotes. -/
def quoted : Document → String
  | .null => "None"
  | .bool value => if value then "True" else "False"
  | .int value => toString value
  | .real value => Number.textOfFloat value
  | .text value => Text.quoted value
  | .list items => "[" ++ commas (quotedItems items) ++ "]"
  | .mapping entries => "\x7b" ++ commas (quotedEntries entries) ++ "\x7d"

/-- The items of a list inside a message. -/
def quotedItems : List Document → List String
  | [] => []
  | item :: rest => quoted item :: quotedItems rest

/-- The entries of a mapping inside a message. -/
def quotedEntries : List (String × Document) → List String
  | [] => []
  | (key, value) :: rest => (Text.quoted key ++ ": " ++ quoted value) :: quotedEntries rest

end

/-- A document as a text of its own. A text stands for itself. -/
def display : Document → String
  | .text value => value
  | d => d.quoted

/-! ## Reading values -/

/-- Why a document has no such value. -/
inductive AccessError where
  /-- The document has no operation of this name. -/
  | noMember (kind name : String)
  /-- The document has no entries to count. -/
  | noLength (kind : String)
  /-- The document has no items to go through. -/
  | notIterable (kind : String)
  /-- The document is neither a number nor a text. -/
  | notNumeric (kind : String)
  /-- The text writes no number. -/
  | notNumber (value : String)
  /-- The text has no form as a number in a listing. -/
  | notListed (kind : String)
  /-- The document has no form in a listing. -/
  | noForm (kind : String)
  /-- The number lies beyond the range of doubles, or a value is not one to compute with. -/
  | arithmetic (reason : ArithmeticError)
  deriving DecidableEq, Repr

/-- The wording of each failure. -/
def AccessError.message : AccessError → String
  | .noMember kind name => s!"'{kind}' object has no attribute '{name}'"
  | .noLength kind => s!"object of type '{kind}' has no len()"
  | .notIterable kind => s!"'{kind}' object is not iterable"
  | .notNumeric kind => s!"float() argument must be a string or a real number, not '{kind}'"
  | .notNumber value => "could not convert string to float: " ++ Text.quoted value
  | .notListed kind => s!"Unknown format code 'g' for object of type '{kind}'"
  | .noForm kind => s!"unsupported format string passed to {kind}.__format__"
  | .arithmetic reason => reason.message

/-- The sort of each failure. -/
def AccessError.sort : AccessError → ErrorSort
  | .noMember _ _ => .member
  | .noLength _ => .kind
  | .notIterable _ => .kind
  | .notNumeric _ => .kind
  | .notNumber _ => .value
  | .notListed _ => .value
  | .noForm _ => .kind
  | .arithmetic reason => reason.sort

/-- The entries of a mapping. -/
def entries? : Document → Except AccessError (List (String × Document))
  | .mapping entries => .ok entries
  | d => .error (.noMember d.kind "get")

/-- The double a document stands for : a number, a truth value as one or zero, or a text that
writes a number. -/
def float? : Document → Except AccessError Float
  | .bool value => .ok (if value then 1.0 else 0.0)
  | .int value => (Number.floatOfInt value).mapError .arithmetic
  | .real value => .ok value
  | .text value =>
    match Decimal.read? value with
    | some x => .ok x
    | none => .error (.notNumber value)
  | d => .error (.notNumeric d.kind)

/-- How many items, entries or characters a document has. -/
def length? : Document → Except AccessError Nat
  | .text value => .ok value.length
  | .list items => .ok items.length
  | .mapping entries => .ok entries.length
  | d => .error (.noLength d.kind)

/-- What a document consists of : items, the keys of entries, or characters. -/
def items? : Document → Except AccessError (List Document)
  | .text value => .ok (value.toList.map fun c => .text (String.singleton c))
  | .list items => .ok items
  | .mapping entries => .ok (entries.map fun e => .text e.1)
  | d => .error (.notIterable d.kind)

end Document

end Confinement
