import Mathlib.Data.List.Induction
import SchemaBinding.Source.Position

/-!
Contract: places as a reader meets them who goes through a text character by character.

Owns:
- `Position.step`, the place after one more character, and `Position.after`, the place
  after all characters of a run at the head of a file;
- `Position.atOffset_eq_after`, by which the place of an offset is the one after the
  characters that fit before it; and
- `Position.atOffset_of_append`, the same where the characters are known.

Does not own: which characters fit before an offset, which `charactersWithin` says, and the
order of places.
-/

set_option autoImplicit false

namespace SchemaBinding

/-! ## Runs of characters -/

theorem lastLine_append_singleton (before : List Char) (character : Char) :
    lastLine (before ++ [character])
      = if character = '\n' then [] else lastLine before ++ [character] := by
  rw [lastLine, List.reverse_append, List.reverse_singleton, List.singleton_append,
    List.takeWhile_cons]
  by_cases newline : character = '\n'
  · simp [newline]
  · simp [newline, lastLine]

/-- What fits into the bytes of a run, of a text that starts with it, is the run. -/
theorem charactersWithin_append (before rest : List Char) :
    charactersWithin (byteLength before) (before ++ rest) = before := by
  induction before with
  | nil =>
      cases rest with
      | nil => rfl
      | cons character later =>
          have tooLong : ¬ character.utf8Size ≤ 0 := by
            have positive := character.utf8Size_pos
            omega
          show charactersWithin 0 (character :: later) = []
          rw [charactersWithin, if_neg tooLong]
  | cons character before inductionHypothesis =>
      have fits : character.utf8Size ≤ character.utf8Size + byteLength before := by omega
      rw [List.cons_append, byteLength_cons, charactersWithin, if_pos fits,
        Nat.add_sub_cancel_left, inductionHypothesis]

namespace Position

/-! ## One character after another -/

/-- The place after a character that stands at `position`. -/
def step (position : Position) (character : Char) : Position :=
  if character = '\n' then
    { line := position.line + 1
      column := 1
      byte := position.byte + character.utf8Size }
  else
    { position with
      column := position.column + 1
      byte := position.byte + character.utf8Size }

/-- The place after a run of characters with which a file starts. -/
def after (before : List Char) : Position :=
  before.foldl step { line := 1, column := 1, byte := 0 }

theorem after_append_singleton (before : List Char) (character : Char) :
    after (before ++ [character]) = (after before).step character := by
  rw [after, List.foldl_append]
  rfl

/-- The line counts newlines, the column characters of the last line, and the byte the
bytes of all characters. -/
theorem after_eq (before : List Char) :
    after before
      = { line := before.count '\n' + 1
          column := (lastLine before).length + 1
          byte := byteLength before } := by
  induction before using List.reverseRecOn with
  | nil => rfl
  | append_singleton before character inductionHypothesis =>
      rw [after_append_singleton, inductionHypothesis, lastLine_append_singleton, step]
      by_cases newline : character = '\n'
      · simp [newline]
      · simp [newline]

@[simp]
theorem after_byte (before : List Char) : (after before).byte = byteLength before := by
  rw [after_eq]

theorem one_le_column_after (before : List Char) : 1 ≤ (after before).column := by
  rw [after_eq]
  exact Nat.le_add_left 1 _

/-- The place of an offset is where one comes who reads what fits before it. -/
theorem atOffset_eq_after (source : String) (offset : Nat) :
    atOffset source offset = after (charactersWithin offset source.toList) :=
  (after_eq _).symm

theorem atOffset_of_append {source : String} {before rest : List Char}
    (split : source.toList = before ++ rest) :
    atOffset source (byteLength before) = after before := by
  rw [atOffset_eq_after, split, charactersWithin_append]

end Position

end SchemaBinding
