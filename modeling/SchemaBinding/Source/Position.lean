import SchemaBinding.Source.Characters

/-!
Contract: places in the text of one source file.

Owns:
- `Position`, a place given by line, column and byte offset;
- the order on positions, lexicographic in (line, column, byte);
- `Position.atOffset`, the place of a byte offset in a text; and
- movement along a line by single-byte characters.

Does not own: file names and stretches of text, which are `Span`s.

Lines and columns count from one and byte offsets from zero. A column counts
characters, so a character of several bytes moves it by one.
-/

set_option autoImplicit false

namespace SchemaBinding

/-- A place in a source text. The zero place `0:0` stands for "nowhere yet". -/
@[ext]
structure Position where
  line : Nat := 0
  column : Nat := 0
  byte : Nat := 0
  deriving DecidableEq, Repr, Inhabited

namespace Position

/-- Reading order: by line, then by column, then by byte offset. -/
def Before (first second : Position) : Prop :=
  first.line < second.line ∨
    (first.line = second.line ∧
      (first.column < second.column ∨
        (first.column = second.column ∧ first.byte < second.byte)))

instance : LT Position := ⟨Before⟩

instance : LE Position := ⟨fun first second => ¬ second < first⟩

instance (first second : Position) : Decidable (first < second) :=
  inferInstanceAs (Decidable (first.line < second.line ∨ _))

instance (first second : Position) : Decidable (first ≤ second) :=
  inferInstanceAs (Decidable (¬ second < first))

instance : Ord Position := ⟨fun first second => compareOfLessAndEq first second⟩

instance : Min Position := minOfLe

instance : Max Position := maxOfLe

theorem lt_iff {first second : Position} :
    first < second ↔
      first.line < second.line ∨
        (first.line = second.line ∧
          (first.column < second.column ∨
            (first.column = second.column ∧ first.byte < second.byte))) :=
  Iff.rfl

theorem le_iff_not_lt {first second : Position} :
    first ≤ second ↔ ¬ second < first :=
  Iff.rfl

theorem le_iff {first second : Position} :
    first ≤ second ↔
      first.line < second.line ∨
        (first.line = second.line ∧
          (first.column < second.column ∨
            (first.column = second.column ∧ first.byte ≤ second.byte))) := by
  rw [le_iff_not_lt, lt_iff]
  omega

protected theorem le_total (first second : Position) : first ≤ second ∨ second ≤ first := by
  rw [le_iff, le_iff]
  omega

protected theorem le_trans {first second third : Position} (earlier : first ≤ second)
    (later : second ≤ third) : first ≤ third := by
  rw [le_iff] at *
  omega

protected theorem le_antisymm {first second : Position} (forward : first ≤ second)
    (backward : second ≤ first) : first = second := by
  rw [le_iff] at *
  obtain ⟨line, column, byte⟩ := first
  obtain ⟨otherLine, otherColumn, otherByte⟩ := second
  simp only [Position.mk.injEq] at *
  omega

/-- The place of byte `offset` in `source`. An offset inside a character stands
for the start of that character, and an offset past the end for the end. -/
def atOffset (source : String) (offset : Nat) : Position :=
  let before := charactersWithin offset source.toList
  { line := before.count '\n' + 1
    column := (lastLine before).length + 1
    byte := byteLength before }

/-- The place `count` single-byte characters further on the same line. Columns and bytes
are counted without a bound: no position of a text that fits in memory, and none a few
characters from it, comes near the largest machine word. -/
def advance (position : Position) (count : Nat) : Position :=
  { position with
    column := position.column + count
    byte := position.byte + count }

/-- The place `count` single-byte characters earlier on the same line. It stops
at the first column and at the start of the file. -/
def retreat (position : Position) (count : Nat) : Position :=
  { position with
    column := max (position.column - count) 1
    byte := position.byte - count }

/-- A place as a reader sees it: `line:column`. -/
def text (position : Position) : String :=
  s!"{position.line}:{position.column}"

end Position

end SchemaBinding
