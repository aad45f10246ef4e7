import SchemaBinding.Number.Decimal
import SchemaBinding.Source.Characters
import SchemaBinding.Text.Quoted

/-!
Contract: what can be wrong with a JSON text, and where.

Owns:
- `Mark`, a place in a text;
- `Reason`, every complaint about a text, with its wording; and
- `Fault`, a reason at a place, with the line and column shown for it.

Does not own: the reading that finds faults.

A place is given by what follows it, so that a reader needs no counter. Bytes are
counted only when a fault is shown: lines from one, and columns in bytes from the
last newline.
-/

set_option autoImplicit false

namespace SchemaBinding
namespace Json

/-- A place in a text, given by the rest of the text from there. -/
abbrev Mark := List Char

/-- A value that stands where another kind of value is wanted. -/
inductive Found where
  | null
  | flag (value : Bool)
  | integer (value : Int)
  | decimal (value : Binary64)
  | text (value : String)
  | list
  | map
  deriving DecidableEq, Repr

namespace Found

def describe : Found → String
  | null => "null"
  | flag value => s!"boolean `{value}`"
  | integer value => s!"integer `{value}`"
  | decimal value => s!"floating point `{value.text}`"
  | text value => "string " ++ quoted value
  | list => "sequence"
  | map => "map"

end Found

/-- The kind of value that is wanted at a place. -/
inductive Wanted where
  | flag
  | text
  | count
  | map
  /-- A record of the given title. -/
  | record (title : String)
  deriving DecidableEq, Repr

namespace Wanted

def describe : Wanted → String
  | flag => "a boolean"
  | text => "a string"
  | count => "u64"
  | map => "a map"
  | record title => "struct " ++ title

end Wanted

/-- What is wrong with a text. -/
inductive Reason where
  /-- The text ends where a value is due or unfinished. -/
  | endInValue
  | endInText
  | endInList
  | endInMap
  | valueExpected
  /-- A word other than `true`, `false` and `null`. -/
  | wordExpected
  | colonExpected
  | listSeparatorExpected
  | mapSeparatorExpected
  | textKeyExpected
  | trailingComma
  | trailingCharacters
  | tooDeep
  | invalidNumber
  | numberOutOfRange
  | invalidEscape
  /-- Half of a surrogate pair without the half before or after it. -/
  | loneSurrogate
  /-- The first half of a surrogate pair that no escape follows. -/
  | unfinishedPair
  | controlCharacter
  | wrongType (found : Found) (wanted : Wanted)
  | negativeCount (value : Int)
  | duplicateField (name : String)
  | missingField (name : String)
  /-- A record given as a list that ends before a field without default. -/
  | tooFewItems (items : Nat) (title : String) (fields : Nat)
  deriving DecidableEq, Repr

namespace Reason

def text : Reason → String
  | endInValue => "EOF while parsing a value"
  | endInText => "EOF while parsing a string"
  | endInList => "EOF while parsing a list"
  | endInMap => "EOF while parsing an object"
  | valueExpected => "expected value"
  | wordExpected => "expected ident"
  | colonExpected => "expected `:`"
  | listSeparatorExpected => "expected `,` or `]`"
  | mapSeparatorExpected => "expected `,` or `\x7d`"
  | textKeyExpected => "key must be a string"
  | trailingComma => "trailing comma"
  | trailingCharacters => "trailing characters"
  | tooDeep => "recursion limit exceeded"
  | invalidNumber => "invalid number"
  | numberOutOfRange => "number out of range"
  | invalidEscape => "invalid escape"
  | loneSurrogate => "lone leading surrogate in hex escape"
  | unfinishedPair => "unexpected end of hex escape"
  | controlCharacter =>
      "control character (\\u0000-\\u001F) found while parsing a string"
  | wrongType found wanted =>
      "invalid type: " ++ found.describe ++ ", expected " ++ wanted.describe
  | negativeCount value =>
      "invalid value: " ++ (Found.integer value).describe ++ ", expected "
        ++ Wanted.count.describe
  | duplicateField name => "duplicate field `" ++ name ++ "`"
  | missingField name => "missing field `" ++ name ++ "`"
  | tooFewItems items title fields =>
      s!"invalid length {items}, expected struct {title} with {fields} elements"

end Reason

/-- A reason `ahead` bytes past a mark, or at the end of the text if that comes
first. -/
structure Fault where
  reason : Reason
  mark : Mark
  ahead : Nat
  deriving DecidableEq, Repr

namespace Fault

/-- A fault at a place that has been reached. -/
def here (reason : Reason) (mark : Mark) : Fault :=
  { reason, mark, ahead := 0 }

/-- A fault found by looking at the byte that follows a place. -/
def next (reason : Reason) (mark : Mark) : Fault :=
  { reason, mark, ahead := 1 }

/-- A fault at the end of the text. -/
def atEnd (reason : Reason) : Fault :=
  here reason []

/-- The number of bytes before the place of the fault. -/
def offset (fault : Fault) (source : List Char) : Nat :=
  min (byteLength source) (byteLength source - byteLength fault.mark + fault.ahead)

/-- The line of an offset, counted from one. -/
def lineOf (source : List Char) (offset : Nat) : Nat :=
  (charactersWithin offset source).count '\n' + 1

/-- The bytes between the last newline before an offset and the offset. -/
def columnOf (source : List Char) (offset : Nat) : Nat :=
  let before := charactersWithin offset source
  offset - (byteLength before - byteLength (lastLine before))

/-- A fault as it is shown to the author of the text. -/
def message (fault : Fault) (source : List Char) : String :=
  let offset := fault.offset source
  let line := lineOf source offset
  let column := columnOf source offset
  fault.reason.text ++ s!" at line {line} column {column}"

end Fault

end Json
end SchemaBinding
