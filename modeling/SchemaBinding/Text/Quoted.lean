import SchemaBinding.Text.Coded

/-!
Contract: a text as it is quoted inside a message.

Owns: `quoted`, which puts a text between quotes on one line.

Does not own: JSON literals, which are quoted by a rule of their own.

Quotes and backslashes are written after a backslash, and the four control
characters that have a letter by that letter. A character that would not show is
written by its code.
-/

set_option autoImplicit false

namespace SchemaBinding

/-- A character by its code in hexadecimal digits of lower case. -/
def coded (character : Char) : List Char :=
  ['\\', 'u', '\x7b'] ++ Nat.toDigits 16 character.toNat ++ ['\x7d']

/-- A character inside a quoted text. -/
def quotedCharacter (character : Char) : List Char :=
  match character with
  | '"' => ['\\', '"']
  | '\\' => ['\\', '\\']
  | '\n' => ['\\', 'n']
  | '\r' => ['\\', 'r']
  | '\t' => ['\\', 't']
  | '\x00' => ['\\', '0']
  | other => if isCoded other then coded other else [other]

/-- A text between quotes. -/
def quoted (text : String) : String :=
  String.ofList ('"' :: text.toList.flatMap quotedCharacter ++ ['"'])

end SchemaBinding
