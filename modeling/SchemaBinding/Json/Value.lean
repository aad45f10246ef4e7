import SchemaBinding.Json.Node

/-!
Contract: JSON values without places.

Owns:
- `Value`, a value with its maps as written;
- `Value.canonical`, which sorts maps and settles repeated keys; and
- `Value.render`, the compact text of a value.

Does not own: the reading of texts.

The text of a canonical value has no blanks and its keys in the order of code
points, so equal values have equal texts however they were written.
-/

set_option autoImplicit false

namespace SchemaBinding
namespace Json

/-- A JSON value. The members of a map stand in the order of the text, and a key
may stand twice. -/
inductive Value where
  | null
  | flag (value : Bool)
  | number (value : Number)
  | text (value : String)
  | list (items : List Value)
  | map (members : List (String × Value))
  deriving Repr

namespace Value

instance : Inhabited Value := ⟨null⟩

/-! ## Canonical form -/

/-- Puts a member into a sorted run of members, in place of a member of the same
key. -/
def insertSorted (key : String) (value : Value) :
    List (String × Value) → List (String × Value)
  | [] => [(key, value)]
  | (other, old) :: rest =>
      if key = other then (key, value) :: rest
      else if key < other then (key, value) :: (other, old) :: rest
      else (other, old) :: insertSorted key value rest

mutual

/-- The value with the members of its maps in the order of their keys. Of the
members of one key the last one remains. -/
def canonical : Value → Value
  | list items => list (canonicalItems items)
  | map members => map (sortMembers [] members)
  | null => null
  | flag value => flag value
  | number value => number value
  | text value => text value

def canonicalItems : List Value → List Value
  | [] => []
  | item :: rest => item.canonical :: canonicalItems rest

/-- Puts members in canonical form into a sorted run of members. -/
def sortMembers (sorted : List (String × Value)) :
    List (String × Value) → List (String × Value)
  | [] => sorted
  | (key, value) :: rest => sortMembers (insertSorted key value.canonical sorted) rest

end

/-! ## Text -/

/-- A hexadecimal digit in lower case. -/
def hexDigit (value : Nat) : Char :=
  Nat.digitChar value

/-- A character inside a text literal. Only quotes, backslashes and control
characters are written otherwise than they are. -/
def escaped (character : Char) : List Char :=
  match character with
  | '"' => ['\\', '"']
  | '\\' => ['\\', '\\']
  | '\x08' => ['\\', 'b']
  | '\x0c' => ['\\', 'f']
  | '\n' => ['\\', 'n']
  | '\r' => ['\\', 'r']
  | '\t' => ['\\', 't']
  | other =>
      if isControl other then
        ['\\', 'u', '0', '0', hexDigit (other.toNat / 16), hexDigit (other.toNat % 16)]
      else [other]

def renderText (text : String) : List Char :=
  '"' :: text.toList.flatMap escaped ++ ['"']

def renderNumber : Number → List Char
  | .integer value => (toString value).toList
  | .decimal value => value.text.toList

mutual

/-- A value as compact text. -/
def render : Value → List Char
  | null => ['n', 'u', 'l', 'l']
  | flag true => ['t', 'r', 'u', 'e']
  | flag false => ['f', 'a', 'l', 's', 'e']
  | number value => renderNumber value
  | text value => renderText value
  | list items => '[' :: renderItems items ++ [']']
  | map members => '\x7b' :: renderMembers members ++ ['\x7d']

def renderItems : List Value → List Char
  | [] => []
  | [item] => item.render
  | item :: rest => item.render ++ ',' :: renderItems rest

def renderMembers : List (String × Value) → List Char
  | [] => []
  | [(key, value)] => renderText key ++ ':' :: value.render
  | (key, value) :: rest => renderText key ++ ':' :: value.render ++ ',' :: renderMembers rest

end

end Value

end Json
end SchemaBinding
