import SchemaBinding.Json.Fault

/-!
Contract: text literals of JSON.

Owns:
- `TextLiteral`, a literal split into its pieces, finished or not;
- `TextLiteral.content`, the text that a literal stands for; and
- `TextLiteral.wellFormed`, the weaker test for literals that are passed over.

Does not own: the choice which literals are read and which are passed over.

A literal is split without being understood. Whoever needs its content pays for
surrogate pairs; whoever passes over it asks only that it ends.
-/

set_option autoImplicit false

namespace SchemaBinding
namespace Json

/-- A part of a text literal. -/
inductive Piece where
  /-- A character that stands for itself. -/
  | plain (character : Char)
  /-- A backslash and a letter, which stand for a character. -/
  | short (character : Char)
  /-- A backslash, `u` and four hexadecimal digits: one unit of 16 bits. -/
  | unit (code : Nat)
  deriving DecidableEq, Repr

/-- How the pieces of a text literal end. -/
inductive TextEnding where
  /-- At a quote. -/
  | closed (after : Mark)
  | endOfSource
  /-- At a bare control character. -/
  | control (mark : Mark)
  /-- At a backslash without meaning. -/
  | unknownEscape (mark : Mark)
  /-- After a backslash and `u` that lack four hexadecimal digits. -/
  | badUnit (mark : Mark)
  deriving DecidableEq, Repr

/-- A text literal: its pieces, each with the place where it starts, and its end. -/
structure TextLiteral where
  pieces : List (Mark × Piece)
  ending : TextEnding
  deriving DecidableEq, Repr

/-- The value of a hexadecimal digit of either case. -/
def hexDigit? (character : Char) : Option Nat :=
  if '0' ≤ character ∧ character ≤ '9' then some (character.toNat - '0'.toNat)
  else if 'a' ≤ character ∧ character ≤ 'f' then some (character.toNat - 'a'.toNat + 10)
  else if 'A' ≤ character ∧ character ≤ 'F' then some (character.toNat - 'A'.toNat + 10)
  else none

/-- The value of four hexadecimal digits. -/
def hexUnit? (first second third fourth : Char) : Option Nat := do
  let first ← hexDigit? first
  let second ← hexDigit? second
  let third ← hexDigit? third
  let fourth ← hexDigit? fourth
  return ((first * 16 + second) * 16 + third) * 16 + fourth

/-- The character that a backslash and a letter stand for. -/
def shortEscape? : Char → Option Char
  | '"' => some '"'
  | '\\' => some '\\'
  | '/' => some '/'
  | 'b' => some '\x08'
  | 'f' => some '\x0c'
  | 'n' => some '\n'
  | 'r' => some '\r'
  | 't' => some '\t'
  | _ => none

/-- Characters below the space may not stand bare in a literal. -/
def isControl (character : Char) : Bool :=
  character < ' '

/-- The first half of a surrogate pair. -/
def isLead (code : Nat) : Bool :=
  0xD800 ≤ code && code < 0xDC00

/-- The second half of a surrogate pair. -/
def isTrail (code : Nat) : Bool :=
  0xDC00 ≤ code && code < 0xE000

/-- The character of a surrogate pair. -/
def pairedCharacter (lead trail : Nat) : Char :=
  Char.ofNat (0x10000 + (lead - 0xD800) * 0x400 + (trail - 0xDC00))

namespace TextLiteral

/-- Puts a piece in front of a literal. -/
def cons (mark : Mark) (piece : Piece) (literal : TextLiteral) : TextLiteral :=
  { literal with pieces := (mark, piece) :: literal.pieces }

/-- Splits the text after an opening quote. -/
def ofCharacters : List Char → TextLiteral
  | [] => ⟨[], .endOfSource⟩
  | '"' :: after => ⟨[], .closed after⟩
  | '\\' :: [] => ⟨[], .endOfSource⟩
  | '\\' :: 'u' :: first :: second :: third :: fourth :: rest =>
      match hexUnit? first second third fourth with
      | some code =>
          cons ('\\' :: 'u' :: first :: second :: third :: fourth :: rest) (.unit code)
            (ofCharacters rest)
      | none => ⟨[], .badUnit (first :: second :: third :: fourth :: rest)⟩
  | '\\' :: 'u' :: rest => ⟨[], .badUnit rest⟩
  | '\\' :: letter :: rest =>
      match shortEscape? letter with
      | some character =>
          cons ('\\' :: letter :: rest) (.short character) (ofCharacters rest)
      | none => ⟨[], .unknownEscape ('\\' :: letter :: rest)⟩
  | character :: rest =>
      if isControl character then ⟨[], .control (character :: rest)⟩
      else cons (character :: rest) (.plain character) (ofCharacters rest)

/-- Four bytes that are not hexadecimal digits, or the end of the text within
four bytes. -/
def badUnitFault (mark : Mark) : Fault :=
  if byteLength mark < 4 then .atEnd .endInText
  else { reason := .invalidEscape, mark, ahead := 4 }

/-- A backslash and the byte after it, when they have no meaning. -/
def unknownEscapeFault (mark : Mark) : Fault :=
  { reason := .invalidEscape, mark, ahead := 2 }

/-- What a missing second half of a surrogate pair is put down to. The byte that
shows it has been read, and a backslash before it as well. -/
def unfinishedPair : List (Mark × Piece) → TextEnding → Fault
  | (mark, .plain _) :: _, _ => .next .unfinishedPair mark
  | (mark, .short _) :: _, _ => { reason := .unfinishedPair, mark, ahead := 2 }
  | (mark, .unit _) :: _, _ => { reason := .loneSurrogate, mark, ahead := 6 }
  | [], .closed after => .here .unfinishedPair after
  | [], .endOfSource => .atEnd .endInText
  | [], .control mark => .next .unfinishedPair mark
  | [], .unknownEscape mark => { reason := .unfinishedPair, mark, ahead := 2 }
  | [], .badUnit mark => badUnitFault mark

/-- The characters of a run of pieces that ends as given, and what follows the
literal. -/
def characters (ending : TextEnding) : List (Mark × Piece) → Except Fault (List Char)
  | [] =>
      match ending with
      | .closed _ => .ok []
      | .endOfSource => .error (.atEnd .endInText)
      | .control mark => .error (.next .controlCharacter mark)
      | .unknownEscape mark => .error (unknownEscapeFault mark)
      | .badUnit mark => .error (badUnitFault mark)
  | (_, .plain character) :: rest => do
      return character :: (← characters ending rest)
  | (_, .short character) :: rest => do
      return character :: (← characters ending rest)
  | (mark, .unit code) :: rest =>
      if isTrail code then
        .error { reason := .loneSurrogate, mark, ahead := 6 }
      else if isLead code then
        match rest with
        | (second, .unit trail) :: more =>
            if isTrail trail then do
              return pairedCharacter code trail :: (← characters ending more)
            else .error (unfinishedPair ((second, .unit trail) :: more) ending)
        | other => .error (unfinishedPair other ending)
      else do
        return Char.ofNat code :: (← characters ending rest)

/-- The text that a literal stands for. -/
def content (literal : TextLiteral) : Except Fault String :=
  (characters literal.ending literal.pieces).map String.ofList

/-- Whether a literal ends, which is all that is asked of one that is passed
over. A bare control character is then noticed before it is read. -/
def wellFormed (literal : TextLiteral) : Except Fault Unit :=
  match literal.ending with
  | .closed _ => .ok ()
  | .endOfSource => .error (.atEnd .endInText)
  | .control mark => .error (.here .controlCharacter mark)
  | .unknownEscape mark => .error (unknownEscapeFault mark)
  | .badUnit mark => .error (badUnitFault mark)

/-- What follows a literal, if it ends. -/
def after? (literal : TextLiteral) : Option Mark :=
  match literal.ending with
  | .closed after => some after
  | _ => none

end TextLiteral

end Json
end SchemaBinding
