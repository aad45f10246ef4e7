import SchemaBinding.Proofs.Source.Boundaries
import SchemaBinding.Proofs.Source.Bytes

/-!
Contract: movement along a line, and the text that it goes over.

Owns:
- `AlongLine`, the bytes that a place can go over without a look at the text;
- how movements follow one another and undo one another; and
- `Position.atOffset_moves`, by which movement over such bytes leads from the place of one
  offset to that of another, forward and backward.

Does not own: movement over anything else. A newline or a character of several bytes makes
the place that is computed differ from the one in the text.

Movement knows neither the text nor where its line starts. What it adds to the column and the
byte it can take away again without going below the first column, since every place of a text
has a column from one on.
-/

set_option autoImplicit false

namespace SchemaBinding

/-! ## Bytes on one line -/

/-- A byte that is a character by itself, other than the newline. All bytes of longer
characters are 128 or more. -/
def isPlain (byte : UInt8) : Bool :=
  byte < 128 && byte != '\n'.toUInt8

/-- The text has all of the `count` bytes from `offset` on, and each of them is a character
by itself that does not end the line. -/
def AlongLine (source : String) (offset count : Nat) : Prop :=
  ∀ index < count, (source.toUTF8[offset + index]?).any isPlain = true

instance (source : String) (offset count : Nat) : Decidable (AlongLine source offset count) :=
  inferInstanceAs (Decidable (∀ index < count, _))

theorem exists_character_of_isPlain {byte : UInt8} (plain : isPlain byte = true) :
    ∃ character : Char,
      character.utf8Size = 1 ∧ character ≠ '\n' ∧ character.toUInt8 = byte := by
  rw [isPlain, Bool.and_eq_true, decide_eq_true_eq, UInt8.lt_iff_toNat_lt] at plain
  have small : byte.toNat < 128 := plain.1
  have same : (Char.ofUInt8 byte).toUInt8 = byte := by
    show byte.toUInt32.toUInt8 = byte
    simp
  refine ⟨Char.ofUInt8 byte, ?_, ?_, same⟩
  · rw [Char.utf8Size_eq_one_iff, UInt32.le_iff_toNat_le]
    show byte.toUInt32.toNat ≤ 127
    rw [UInt8.toNat_toUInt32]
    omega
  · intro newline
    rw [newline] at same
    simp [same] at plain

/-- Fewer bytes from the same offset are along the line too. -/
theorem AlongLine.of_le {source : String} {offset count fewer : Nat}
    (alongLine : AlongLine source offset count) (within : fewer ≤ count) :
    AlongLine source offset fewer :=
  fun index earlier => alongLine index (Nat.lt_of_lt_of_le earlier within)

namespace Position

/-! ## Movements -/

theorem advance_advance (position : Position) (first second : Nat) :
    (position.advance first).advance second = position.advance (first + second) := by
  simp [advance, Nat.add_assoc]

/-- What was gone forward can be gone back, from any place that has a column. -/
theorem retreat_advance {position : Position} (column : 1 ≤ position.column) (count : Nat) :
    (position.advance count).retreat count = position := by
  obtain ⟨line, column, byte⟩ := position
  simp only [retreat, advance, Position.mk.injEq, true_and] at *
  omega

theorem step_eq_advance {character : Char} (position : Position)
    (short : character.utf8Size = 1) (sameLine : character ≠ '\n') :
    position.step character = position.advance 1 := by
  rw [step, if_neg sameLine, short]
  rfl

/-! ## Movements over a text -/

theorem one_le_column_atOffset (source : String) (offset : Nat) :
    1 ≤ (atOffset source offset).column := by
  rw [atOffset_eq_after]
  exact one_le_column_after _

/-- The place of a boundary has the byte of the boundary. -/
theorem byte_atOffset_of_boundary {source : String} {offset : Nat}
    (boundary : String.Pos.Raw.IsValid source ⟨offset⟩) :
    (atOffset source offset).byte = offset := by
  obtain ⟨before, ⟨rest, split⟩, rfl⟩ := isValid_iff_exists_run.1 boundary
  rw [atOffset_of_append split.symm, after_byte]

section

variable {source : String} {offset : Nat}

/-- Over a byte that is a character of its own, and does not end the line, a place moves
along its line, and back. -/
theorem atOffset_succ {character : Char} (short : character.utf8Size = 1)
    (sameLine : character ≠ '\n') (here : source.toUTF8[offset]? = some character.toUInt8) :
    (atOffset source offset).byte = offset ∧
      (atOffset source offset).advance 1 = atOffset source (offset + 1) ∧
      (atOffset source (offset + 1)).retreat 1 = atOffset source offset := by
  rw [getElem?_toUTF8] at here
  obtain ⟨before, rest, split, rfl⟩ := exists_append_of_byte short _ _ here
  have start : atOffset source (byteLength before) = after before :=
    atOffset_of_append split
  have stop : atOffset source (byteLength before + 1) = (after before).advance 1 := by
    have next : source.toList = (before ++ [character]) ++ rest := by
      rw [split, List.append_assoc, List.singleton_append]
    have bytes : byteLength before + 1 = byteLength (before ++ [character]) := by
      rw [byteLength_append, byteLength_cons, byteLength_nil, short]
    rw [bytes, atOffset_of_append next, after_append_singleton,
      step_eq_advance _ short sameLine]
  rw [start, stop]
  exact ⟨after_byte before, rfl, retreat_advance (one_le_column_after before) 1⟩

/-- Byte after byte along a line the place goes as many columns and bytes forward. -/
theorem advance_atOffset {count : Nat} (alongLine : AlongLine source offset count) :
    (atOffset source offset).advance count = atOffset source (offset + count) := by
  induction count with
  | zero => rfl
  | succ count inductionHypothesis =>
      have earlier := inductionHypothesis (alongLine.of_le (Nat.le_succ count))
      have last := alongLine count (Nat.lt_succ_self count)
      rw [Option.any_eq_true] at last
      obtain ⟨byte, here, plain⟩ := last
      obtain ⟨character, short, sameLine, rfl⟩ := exists_character_of_isPlain plain
      have next := (atOffset_succ short sameLine here).2.1
      calc (atOffset source offset).advance (count + 1)
          = ((atOffset source offset).advance count).advance 1 :=
            (advance_advance _ count 1).symm
        _ = (atOffset source (offset + count)).advance 1 := by rw [earlier]
        _ = atOffset source (offset + (count + 1)) := next

/-- Over bytes that are characters of one line, movement leads from the place of the first to
the place after the last, and back to the first. On the way back neither the first column nor
the start of the file stops it: the column stays above zero, and the byte is not below the
number of bytes to go. -/
theorem atOffset_moves {count : Nat} (boundary : String.Pos.Raw.IsValid source ⟨offset⟩)
    (alongLine : AlongLine source offset count) :
    (atOffset source offset).byte = offset ∧
      (atOffset source offset).advance count = atOffset source (offset + count) ∧
      (atOffset source (offset + count)).retreat count = atOffset source offset ∧
      count < (atOffset source (offset + count)).column ∧
      count ≤ (atOffset source (offset + count)).byte := by
  have forward := advance_atOffset alongLine
  have column := one_le_column_atOffset source offset
  refine ⟨byte_atOffset_of_boundary boundary, forward, ?_, ?_, ?_⟩
  · rw [← forward]
    exact retreat_advance column count
  · rw [← forward]
    show count < (atOffset source offset).column + count
    omega
  · rw [← forward]
    exact Nat.le_add_left count _

end

/-- From the start of the second line, after a newline and before a character of two bytes. -/
theorem atOffset_moves_secondLine :
    String.Pos.Raw.IsValid "é\nab é" ⟨3⟩ ∧ AlongLine "é\nab é" 3 3 ∧
      (atOffset "é\nab é" 3).byte = 3 ∧
      (atOffset "é\nab é" 3).advance 3 = atOffset "é\nab é" 6 ∧
      (atOffset "é\nab é" 6).retreat 3 = atOffset "é\nab é" 3 ∧
      3 < (atOffset "é\nab é" 6).column ∧ 3 ≤ (atOffset "é\nab é" 6).byte := by
  have boundary : String.Pos.Raw.IsValid "é\nab é" ⟨3⟩ := by decide
  have alongLine : AlongLine "é\nab é" 3 3 := by decide
  exact ⟨boundary, alongLine, atOffset_moves boundary alongLine⟩

end Position

end SchemaBinding
