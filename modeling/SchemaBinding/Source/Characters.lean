/-!
Contract: runs of characters measured in bytes.

Owns:
- `byteLength`, the size of a run of characters in its UTF-8 form;
- `charactersWithin`, the characters that fit into a number of bytes; and
- `lastLine`, what stands after the last newline.

Does not own: byte sequences as such. A text is a list of characters here, and
bytes only measure it.
-/

set_option autoImplicit false

namespace SchemaBinding

/-- The bytes that a run of characters takes up. -/
def byteLength : List Char → Nat
  | [] => 0
  | character :: rest => character.utf8Size + byteLength rest

/-- The longest run of whole characters at the head of a text that takes up at
most `room` bytes. -/
def charactersWithin : Nat → List Char → List Char
  | _, [] => []
  | room, character :: rest =>
      if character.utf8Size ≤ room then
        character :: charactersWithin (room - character.utf8Size) rest
      else []

/-- What stands after the last newline of a run of characters. -/
def lastLine (characters : List Char) : List Char :=
  (characters.reverse.takeWhile (· ≠ '\n')).reverse

@[simp]
theorem byteLength_nil : byteLength [] = 0 := rfl

@[simp]
theorem byteLength_cons (character : Char) (rest : List Char) :
    byteLength (character :: rest) = character.utf8Size + byteLength rest := rfl

@[simp]
theorem byteLength_append (first second : List Char) :
    byteLength (first ++ second) = byteLength first + byteLength second := by
  induction first with
  | nil => simp
  | cons character rest inductionHypothesis =>
      rw [List.cons_append, byteLength_cons, byteLength_cons, inductionHypothesis,
        Nat.add_assoc]

/-- What fits into `room` bytes takes up at most `room` bytes. -/
theorem byteLength_charactersWithin (room : Nat) (text : List Char) :
    byteLength (charactersWithin room text) ≤ room := by
  induction text generalizing room with
  | nil => simp [charactersWithin]
  | cons character rest inductionHypothesis =>
      by_cases fits : character.utf8Size ≤ room
      · have inner := inductionHypothesis (room - character.utf8Size)
        simp only [charactersWithin, fits, if_true, byteLength_cons]
        omega
      · simp [charactersWithin, fits]

/-- The characters that fit stand at the head of the text. -/
theorem charactersWithin_isPrefix (room : Nat) (text : List Char) :
    charactersWithin room text <+: text := by
  induction text generalizing room with
  | nil => simp [charactersWithin]
  | cons character rest inductionHypothesis =>
      by_cases fits : character.utf8Size ≤ room
      · simpa [charactersWithin, fits] using
          inductionHypothesis (room - character.utf8Size)
      · simp [charactersWithin, fits]

end SchemaBinding
