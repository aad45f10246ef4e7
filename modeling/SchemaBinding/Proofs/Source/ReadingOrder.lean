import Mathlib.Data.List.Induction
import Mathlib.Data.Prod.Lex
import SchemaBinding.Proofs.Source.Boundaries

/-!
Contract: the places of one text in the order in which it is read.

Owns:
- `Position.Precedes`, a place that is earlier on the page and in the bytes at once;
- `eq_or_precedes_of_isPrefix`, by which reading on moves forward in both; and
- `atOffset_ordered`, by which line and column of the places of a text say as much as their
  bytes.

Does not own: places of different texts. Their lines and columns tell nothing about bytes.

Of two offsets of a text one is not beyond the other, so two places are the same, or one
precedes the other. All that is said here of their order is read off these three cases.
-/

set_option autoImplicit false

namespace SchemaBinding

namespace Position

/-- Line and column come before those of the other place, by line first, and the byte comes
before that of the other place. -/
structure Precedes (first second : Position) : Prop where
  onPage : toLex (first.line, first.column) < toLex (second.line, second.column)
  byte : first.byte < second.byte

theorem Precedes.trans {first second third : Position} (earlier : first.Precedes second)
    (later : second.Precedes third) : first.Precedes third where
  onPage := lt_trans earlier.onPage later.onPage
  byte := Nat.lt_trans earlier.byte later.byte

theorem Precedes.lt {first second : Position} (earlier : first.Precedes second) :
    first < second := by
  have onPage := earlier.onPage
  rw [Prod.Lex.toLex_lt_toLex] at onPage
  rw [lt_iff]
  omega

/-! ## Reading on -/

/-- A newline moves to the next line, and any other character along the line. -/
theorem precedes_step (position : Position) (character : Char) :
    position.Precedes (position.step character) := by
  have positive := character.utf8Size_pos
  by_cases newline : character = '\n'
  · rw [step, if_pos newline]
    constructor
    · simp [Prod.Lex.toLex_lt_toLex]
    · show position.byte < position.byte + character.utf8Size
      omega
  · rw [step, if_neg newline]
    constructor
    · simp [Prod.Lex.toLex_lt_toLex]
    · show position.byte < position.byte + character.utf8Size
      omega

/-- Reading on leads to a later place, if anywhere. -/
theorem eq_or_precedes_of_isPrefix {before longer : List Char} (initial : before <+: longer) :
    before = longer ∨ (after before).Precedes (after longer) := by
  obtain ⟨further, rfl⟩ := initial
  induction further using List.reverseRecOn with
  | nil => exact Or.inl (List.append_nil before).symm
  | append_singleton further character inductionHypothesis =>
      right
      have next := precedes_step (after (before ++ further)) character
      rw [← List.append_assoc, after_append_singleton]
      rcases inductionHypothesis with same | earlier
      · rw [← same] at next ⊢
        exact next
      · exact earlier.trans next

section

variable (source : String) (first second : Nat)

/-! ## Two places of one text -/

variable {first second} in
/-- A later offset stands for the same place or for a later one. -/
theorem atOffset_eq_or_precedes (order : first ≤ second) :
    atOffset source first = atOffset source second ∨
      (atOffset source first).Precedes (atOffset source second) := by
  have fits : byteLength (charactersWithin first source.toList) ≤ second :=
    Nat.le_trans (byteLength_charactersWithin first source.toList) order
  have initial :=
    isPrefix_charactersWithin (charactersWithin_isPrefix first source.toList) fits
  rw [atOffset_eq_after, atOffset_eq_after]
  exact (eq_or_precedes_of_isPrefix initial).imp_left (congrArg after)

theorem atOffset_trichotomy :
    atOffset source first = atOffset source second ∨
      (atOffset source first).Precedes (atOffset source second) ∨
        (atOffset source second).Precedes (atOffset source first) := by
  rcases Nat.le_total first second with order | order
  · exact (atOffset_eq_or_precedes source order).imp_right Or.inl
  · exact (atOffset_eq_or_precedes source order).imp Eq.symm Or.inr

theorem byte_lt_iff_onPage_lt :
    (atOffset source first).byte < (atOffset source second).byte ↔
      toLex ((atOffset source first).line, (atOffset source first).column)
        < toLex ((atOffset source second).line, (atOffset source second).column) := by
  rcases atOffset_trichotomy source first second with same | earlier | later
  · rw [same]
    exact iff_of_false (Nat.lt_irrefl _) (lt_irrefl _)
  · exact iff_of_true earlier.byte earlier.onPage
  · exact iff_of_false (Nat.lt_asymm later.byte) (lt_asymm later.onPage)

theorem byte_eq_iff_onPage_eq :
    (atOffset source first).byte = (atOffset source second).byte ↔
      (atOffset source first).line = (atOffset source second).line ∧
        (atOffset source first).column = (atOffset source second).column := by
  rcases atOffset_trichotomy source first second with same | earlier | later
  · rw [same]
    exact iff_of_true rfl ⟨rfl, rfl⟩
  · apply iff_of_false (Nat.ne_of_lt earlier.byte)
    have onPage := earlier.onPage
    rw [Prod.Lex.toLex_lt_toLex] at onPage
    omega
  · apply iff_of_false (Nat.ne_of_gt later.byte)
    have onPage := later.onPage
    rw [Prod.Lex.toLex_lt_toLex] at onPage
    omega

theorem lt_iff_byte_lt :
    atOffset source first < atOffset source second ↔
      (atOffset source first).byte < (atOffset source second).byte := by
  rcases atOffset_trichotomy source first second with same | earlier | later
  · rw [same, lt_iff]
    omega
  · exact iff_of_true earlier.lt earlier.byte
  · apply iff_of_false ?_ (Nat.lt_asymm later.byte)
    have after := later.lt
    rw [lt_iff] at *
    omega

theorem compare_eq_compare_byte :
    compare (atOffset source first) (atOffset source second)
      = compare (atOffset source first).byte (atOffset source second).byte := by
  have same :
      atOffset source first = atOffset source second ↔
        (atOffset source first).byte = (atOffset source second).byte := by
    rw [Position.ext_iff, byte_eq_iff_onPage_eq]
    omega
  show compareOfLessAndEq (atOffset source first) (atOffset source second)
    = compareOfLessAndEq (atOffset source first).byte (atOffset source second).byte
  unfold compareOfLessAndEq
  simp only [lt_iff_byte_lt, same]

variable {source first second} in
/-- In one text the order of places is the order of their bytes. -/
theorem byte_le_of_atOffset_le (order : atOffset source first ≤ atOffset source second) :
    (atOffset source first).byte ≤ (atOffset source second).byte := by
  rw [le_iff_not_lt, lt_iff_byte_lt] at order
  omega

/-- Of two places of one text the one with the smaller byte is the one that is earlier on the
page, by line and then by column. So line and column determine the byte, places compare as
their bytes do, and a later offset does not stand for an earlier place. -/
theorem atOffset_ordered :
    ((atOffset source first).byte < (atOffset source second).byte ↔
        toLex ((atOffset source first).line, (atOffset source first).column)
          < toLex ((atOffset source second).line, (atOffset source second).column)) ∧
      ((atOffset source first).byte = (atOffset source second).byte ↔
        (atOffset source first).line = (atOffset source second).line ∧
          (atOffset source first).column = (atOffset source second).column) ∧
      compare (atOffset source first) (atOffset source second)
        = compare (atOffset source first).byte (atOffset source second).byte ∧
      (first ≤ second → atOffset source first ≤ atOffset source second) := by
  refine ⟨byte_lt_iff_onPage_lt source first second, byte_eq_iff_onPage_eq source first second,
    compare_eq_compare_byte source first second, ?_⟩
  intro order
  rw [le_iff_not_lt, lt_iff_byte_lt]
  rcases atOffset_eq_or_precedes source order with same | earlier
  · rw [same]
    exact Nat.lt_irrefl _
  · exact Nat.lt_asymm earlier.byte

end

/-- Both offsets stand for the start of the character of two bytes, which is on the second
line. -/
theorem atOffset_ordered_insideCharacter :
    2 ≤ 3 ∧ atOffset "a\né" 2 ≤ atOffset "a\né" 3 ∧
      compare (atOffset "a\né" 2) (atOffset "a\né" 3) = compare 2 2 := by
  have ordered := atOffset_ordered "a\né" 2 3
  exact ⟨by decide, ordered.2.2.2 (by decide), ordered.2.2.1⟩

end Position

end SchemaBinding
