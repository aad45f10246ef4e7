import SchemaBinding.Json.Value
import SchemaBinding.NamedMap

/-!
Contract: the values that a reader may want at a place of a JSON text.

Owns:
- readers for flags, texts, counts, optional values and values of any kind;
- `Node.readMap`, for maps with any keys; and
- the budget of open lists and maps, which every reader that opens one spends.

Does not own: records, which are maps with given keys.

A reader walks the tree in the order of the text and stops at the first fault. It
looks at what is wanted only where a value starts: a fault inside an unwanted
value counts before the complaint that it is unwanted.
-/

set_option autoImplicit false

namespace SchemaBinding
namespace Json

/-- What a number is in a complaint. -/
def Number.found : Number → Found
  | .integer value => .integer value
  | .decimal value => .decimal value

namespace Node

/-- What stands at a place in a complaint about it, and where the complaint is
shown: after a word, a number or a text, and before a list or a map. -/
def found : Node → Except Fault (Found × Mark)
  | .word _ .null after => .ok (.null, after)
  | .word _ (.flag value) after => .ok (.flag value, after)
  | .number _ literal => do
      return ((← literal.value).found, literal.after?.getD [])
  | .text _ literal => do
      return (.text (← literal.content), literal.after?.getD [])
  | .list start _ _ => .ok (.list, start)
  | .map start _ _ => .ok (.map, start)
  | .broken _ fault => .error fault

/-- Rejects a value of an unwanted kind. -/
def reject {α : Type} (wanted : Wanted) (node : Node) : Except Fault α := do
  let (found, mark) ← node.found
  .error (.here (.wrongType found wanted) mark)

def readFlag : Node → Except Fault Bool
  | .word _ (.flag value) _ => .ok value
  | other => other.reject .flag

def readText : Node → Except Fault String
  | .text _ literal => literal.content
  | other => other.reject .text

/-- An integer from zero up that fits into 64 bits. -/
def readCount : Node → Except Fault UInt64
  | .number start literal => do
      match ← literal.value with
      | .integer value =>
          if 0 ≤ value then .ok (UInt64.ofNat value.toNat)
          else .error (.here (.negativeCount value) (literal.after?.getD []))
      | .decimal _ => (Node.number start literal).reject .count
  | other => other.reject .count

/-- `null` for an absent value, and otherwise the value. -/
def readOptional {α : Type} (read : Node → Except Fault α) :
    Node → Except Fault (Option α)
  | .word _ .null _ => .ok none
  | other => (read other).map some

end Node

/-- The number of lists and maps that may be open at once. -/
def openLimit : Nat := 127

/-- Spends one of the lists and maps that may be open, for the one that starts at
a mark. -/
def spend {α : Type} (budget : Nat) (start : Mark) (read : Nat → Except Fault α) :
    Except Fault α :=
  match budget with
  | 0 => .error (.next .tooDeep start)
  | rest + 1 => read rest

/-! ## Values of any kind -/

mutual

def Node.readValue (budget : Nat) : Node → Except Fault Value
  | .word _ .null _ => .ok .null
  | .word _ (.flag value) _ => .ok (.flag value)
  | .number _ literal => literal.value.map .number
  | .text _ literal => literal.content.map .text
  | .list start items ending =>
      spend budget start fun rest => do
        let items ← Node.readValues rest items
        ending.whenReading
        return .list items
  | .map start members ending =>
      spend budget start fun rest => do
        let members ← Member.readValues rest members
        ending.whenReading
        return .map members
  | .broken _ fault => .error fault

def Node.readValues (budget : Nat) : List Node → Except Fault (List Value)
  | [] => .ok []
  | item :: rest => do
      let value ← item.readValue budget
      return value :: (← Node.readValues budget rest)

def Member.readValues (budget : Nat) : List Member → Except Fault (List (String × Value))
  | [] => .ok []
  | ⟨key, value⟩ :: rest => do
      let key ← key.content
      let value ← value.readValue budget
      return (key, value) :: (← Member.readValues budget rest)

end

/-! ## Maps with any keys -/

/-- Reads members into a map, where the last value of a name stands in the place of the
first one. -/
def Member.readNamed {α : Type} (read : Node → Except Fault α) :
    List Member → NamedMap α → Except Fault (NamedMap α)
  | [], sofar => .ok sofar
  | ⟨key, value⟩ :: rest, sofar => do
      let name ← key.content
      let value ← read value
      Member.readNamed read rest (sofar.insert name value)

/-- A map whose values are all read in one way. -/
def Node.readMap {α : Type} (budget : Nat) (read : Nat → Node → Except Fault α) :
    Node → Except Fault (NamedMap α)
  | .map start members ending =>
      spend budget start fun rest => do
        let entries ← Member.readNamed (read rest) members {}
        ending.whenReading
        return entries
  | other => other.reject .map

end Json
end SchemaBinding
