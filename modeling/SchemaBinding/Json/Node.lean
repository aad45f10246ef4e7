import SchemaBinding.Json.NumberLiteral
import SchemaBinding.Json.TextLiteral

/-!
Contract: the tree of a JSON text, with places, broken off where the text breaks.

Owns:
- `Node` and `Member`, and the ways in which lists and maps end;
- `Node.ofCharacters`, which splits a text into its tree; and
- `Node.wellFormed`, the test for values that are passed over.

Does not own: what a value is wanted for. That decides which fault of a text is
the first one, so the tree keeps what every later reader may complain about.

The tree of a broken text is complete up to the break. Nothing stands after a
broken item of a list or a broken member of a map, and `Node.after?` is `none`
for a tree with a break inside.
-/

set_option autoImplicit false

namespace SchemaBinding
namespace Json

/-- A value written as a word. -/
inductive Word where
  | null
  | flag (value : Bool)
  deriving DecidableEq, Repr

/-- How the items of a list end. -/
inductive ListEnding where
  | closed (after : Mark)
  /-- The bracket after a comma. -/
  | closedAfterComma (mark : Mark)
  /-- The end of the text after a comma. -/
  | endAfterComma
  /-- The end of the text after the opening bracket or an item. -/
  | endOfSource
  /-- Something after an item that is neither comma nor bracket. -/
  | unseparated (mark : Mark)
  /-- The last item is broken. -/
  | broken
  deriving DecidableEq, Repr

/-- How the members of a map end. -/
inductive MapEnding where
  | closed (after : Mark)
  /-- The brace after a comma. -/
  | closedAfterComma (mark : Mark)
  /-- The end of the text after a comma. -/
  | endAfterComma
  /-- The end of the text after the opening brace or a member. -/
  | endOfSource
  /-- Something after a member that is neither comma nor brace. -/
  | unseparated (mark : Mark)
  /-- Something that is not a quote where a key is due. -/
  | keyless (mark : Mark)
  /-- A key that does not end. -/
  | brokenKey (key : TextLiteral)
  /-- The value of the last member is broken. -/
  | broken
  deriving DecidableEq, Repr

mutual

/-- A value with the place where it starts. -/
inductive Node where
  | word (start : Mark) (word : Word) (after : Mark)
  | number (start : Mark) (literal : NumberLiteral)
  | text (start : Mark) (literal : TextLiteral)
  | list (start : Mark) (items : List Node) (ending : ListEnding)
  | map (start : Mark) (members : List Member) (ending : MapEnding)
  /-- No value at all, for a reason that every reader gives. -/
  | broken (start : Mark) (fault : Fault)

/-- A key with its value. -/
inductive Member where
  | mk (key : TextLiteral) (value : Node)

end

namespace Member

def key : Member → TextLiteral
  | ⟨key, _⟩ => key

def value : Member → Node
  | ⟨_, value⟩ => value

end Member

namespace ListEnding

def after? : ListEnding → Option Mark
  | closed after => some after
  | _ => none

/-- What a reader finds who asks for another item. -/
def whenReading : ListEnding → Except Fault Unit
  | closed _ | broken => .ok ()
  | closedAfterComma mark => .error (.next .trailingComma mark)
  | endAfterComma => .error (.atEnd .endInValue)
  | endOfSource => .error (.atEnd .endInList)
  | unseparated mark => .error (.next .listSeparatorExpected mark)

/-- What a reader finds who passes over the list. -/
def whenPassing : ListEnding → Except Fault Unit
  | closedAfterComma mark => .error (.next .valueExpected mark)
  | other => other.whenReading

/-- What a reader finds who wants no more items. -/
def whenClosing : ListEnding → Except Fault Unit
  | endAfterComma => .error (.atEnd .trailingCharacters)
  | unseparated mark => .error (.next .trailingCharacters mark)
  | other => other.whenReading

end ListEnding

namespace MapEnding

def after? : MapEnding → Option Mark
  | closed after => some after
  | _ => none

/-- What a reader finds who asks for another member. -/
def whenReading : MapEnding → Except Fault Unit
  | closed _ | broken => .ok ()
  | closedAfterComma mark => .error (.next .trailingComma mark)
  | endAfterComma => .error (.atEnd .endInValue)
  | endOfSource => .error (.atEnd .endInMap)
  | unseparated mark => .error (.next .mapSeparatorExpected mark)
  | keyless mark => .error (.next .textKeyExpected mark)
  | brokenKey key => key.content.map fun _ => ()

/-- What a reader finds who passes over the map. -/
def whenPassing : MapEnding → Except Fault Unit
  | closedAfterComma mark => .error (.next .textKeyExpected mark)
  | endAfterComma => .error (.atEnd .endInMap)
  | brokenKey key => key.wellFormed
  | other => other.whenReading

end MapEnding

namespace Node

def start : Node → Mark
  | word start _ _ => start
  | number start _ => start
  | text start _ => start
  | list start _ _ => start
  | map start _ _ => start
  | broken start _ => start

/-- What follows a value, if it is complete. -/
def after? : Node → Option Mark
  | word _ _ after => some after
  | number _ literal => literal.after?
  | text _ literal => literal.after?
  | list _ _ ending => ending.after?
  | map _ _ ending => ending.after?
  | broken _ _ => none

end Node

/-! ## Splitting a text -/

/-- The blanks of JSON. -/
def isBlank (character : Char) : Bool :=
  character == ' ' || character == '\n' || character == '\t' || character == '\r'

def skipBlanks (text : List Char) : List Char :=
  text.dropWhile isBlank

/-- Takes the letters of a word off a text, or tells what stands in their way. -/
def takeLetters : List Char → List Char → Except Fault Mark
  | [], text => .ok text
  | _ :: _, [] => .error (.atEnd .endInValue)
  | letter :: letters, character :: rest =>
      if character = letter then takeLetters letters rest
      else .error (.next .wordExpected (character :: rest))

/-- A word whose first letter has been recognised. -/
def Node.ofWord (start : Mark) (letters : List Char) (word : Word) : Node :=
  match takeLetters letters (start.drop 1) with
  | .ok after => .word start word after
  | .error fault => .broken start fault

/-- A value that is no list and no map, at the head of a text. -/
def Node.ofScalar (start : Mark) : Node :=
  match start with
  | [] => .broken start (.atEnd .endInValue)
  | 'n' :: _ => .ofWord start ['u', 'l', 'l'] .null
  | 't' :: _ => .ofWord start ['r', 'u', 'e'] (.flag true)
  | 'f' :: _ => .ofWord start ['a', 'l', 's', 'e'] (.flag false)
  | '"' :: rest => .text start (.ofCharacters rest)
  | character :: _ =>
      if character = '-' ∨ isDigit character then .number start (.ofCharacters start)
      else .broken start (.next .valueExpected start)

mutual

/-- The value at the head of a text, after blanks. -/
def readNode : Nat → List Char → Node
  | 0, text => .broken text (.next .valueExpected text)
  | fuel + 1, text =>
      match skipBlanks text with
      | '[' :: rest =>
          match skipBlanks rest with
          | [] => .list ('[' :: rest) [] .endOfSource
          | ']' :: after => .list ('[' :: rest) [] (.closed after)
          | more =>
              let (items, ending) := readItems fuel more
              .list ('[' :: rest) items ending
      | '\x7b' :: rest =>
          match skipBlanks rest with
          | [] => .map ('\x7b' :: rest) [] .endOfSource
          | '\x7d' :: after => .map ('\x7b' :: rest) [] (.closed after)
          | '"' :: more =>
              let (members, ending) := readMembers fuel more
              .map ('\x7b' :: rest) members ending
          | other => .map ('\x7b' :: rest) [] (.keyless other)
      | other => .ofScalar other

/-- The items from the head of a text up to the end of a list. -/
def readItems : Nat → List Char → List Node × ListEnding
  | 0, text => ([], .unseparated text)
  | fuel + 1, text =>
      let item := readNode fuel text
      match item.after? with
      | none => ([item], .broken)
      | some after =>
          match skipBlanks after with
          | [] => ([item], .endOfSource)
          | ']' :: rest => ([item], .closed rest)
          | ',' :: rest =>
              match skipBlanks rest with
              | [] => ([item], .endAfterComma)
              | ']' :: more => ([item], .closedAfterComma (']' :: more))
              | more =>
                  let (items, ending) := readItems fuel more
                  (item :: items, ending)
          | other => ([item], .unseparated other)

/-- The members up to the end of a map, where the first key has been opened. -/
def readMembers : Nat → List Char → List Member × MapEnding
  | 0, text => ([], .unseparated text)
  | fuel + 1, text =>
      let key := TextLiteral.ofCharacters text
      match key.after? with
      | none => ([], .brokenKey key)
      | some after =>
          let value := readMemberValue fuel (skipBlanks after)
          match value.after? with
          | none => ([⟨key, value⟩], .broken)
          | some after =>
              match skipBlanks after with
              | [] => ([⟨key, value⟩], .endOfSource)
              | '\x7d' :: rest => ([⟨key, value⟩], .closed rest)
              | ',' :: rest =>
                  match skipBlanks rest with
                  | [] => ([⟨key, value⟩], .endAfterComma)
                  | '\x7d' :: more => ([⟨key, value⟩], .closedAfterComma ('\x7d' :: more))
                  | '"' :: more =>
                      let (members, ending) := readMembers fuel more
                      (⟨key, value⟩ :: members, ending)
                  | other => ([⟨key, value⟩], .keyless other)
              | other => ([⟨key, value⟩], .unseparated other)

/-- A colon and the value after it. -/
def readMemberValue : Nat → List Char → Node
  | 0, text => .broken text (.next .valueExpected text)
  | fuel + 1, text =>
      match text with
      | [] => .broken text (.atEnd .endInMap)
      | ':' :: rest => readNode fuel rest
      | other => .broken other (.next .colonExpected other)

end

/-- Enough steps to read any value of a text: each character of a text gives rise
to at most three nested calls. -/
def readingSteps (text : List Char) : Nat :=
  3 * text.length + 1

/-- The value at the head of a text, after blanks. -/
def Node.ofCharacters (text : List Char) : Node :=
  readNode (readingSteps text) text

/-! ## Passing over a value -/

mutual

/-- Whether a value can be passed over: its lists and maps are closed, its words
and numbers complete and its texts ended. Nothing is asked of the depth, of the
range of numbers and of surrogate pairs. -/
def Node.wellFormed : Node → Except Fault Unit
  | .word _ _ _ => .ok ()
  | .number _ literal => literal.wellFormed
  | .text _ literal => literal.wellFormed
  | .list _ items ending => do
      Node.allWellFormed items
      ending.whenPassing
  | .map _ members ending => do
      Member.allWellFormed members
      ending.whenPassing
  | .broken _ fault => .error fault

def Node.allWellFormed : List Node → Except Fault Unit
  | [] => .ok ()
  | item :: rest => do
      item.wellFormed
      Node.allWellFormed rest

def Member.allWellFormed : List Member → Except Fault Unit
  | [] => .ok ()
  | ⟨key, value⟩ :: rest => do
      key.wellFormed
      value.wellFormed
      Member.allWellFormed rest

end

end Json
end SchemaBinding
