import Mathlib.Data.String.Basic
import Mathlib.Order.Bounds.Basic
import SchemaBinding.Proofs.Source.Scan

/-!
Contract: which characters of a text stand before an offset, whatever the offset.

Owns:
- `withEnds`, the characters of a text with the offsets at which they end, and
  `charactersWithin_eq_filter`, by which those that fit before an offset are all that end
  there or earlier;
- character boundaries, which the runs at the head of a text reach one by one; and
- `atOffset_scans`, by which the place of an offset is found by going through the text
  character by character, up to the greatest boundary that is not beyond it.

Does not own: what a boundary is, which the standard library says of the bytes of a text.

A run that fits is found by subtracting sizes from the room that is left, and an end by
adding them up. The two meet in one induction with the sum of both fixed.
-/

set_option autoImplicit false

namespace SchemaBinding

/-! ## Where characters end -/

/-- The characters of a text whose first byte stands at `start`, each with the offset just
after its last byte. -/
def withEnds : Nat → List Char → List (Char × Nat)
  | _, [] => []
  | start, character :: rest =>
      (character, start + character.utf8Size) :: withEnds (start + character.utf8Size) rest

/-- The characters of a text that end at `limit` or earlier, in order. -/
def charactersEndingBy (limit : Nat) (text : List Char) : List Char :=
  ((withEnds 0 text).filter fun ended => ended.2 ≤ limit).map Prod.fst

/-- No character ends before the text starts, and none after the text does. -/
theorem bounds_of_mem_withEnds {text : List Char} {start : Nat} {ended : Char × Nat}
    (member : ended ∈ withEnds start text) :
    start < ended.2 ∧ ended.2 ≤ start + byteLength text := by
  induction text generalizing start with
  | nil => simp [withEnds] at member
  | cons character rest inductionHypothesis =>
      have positive := character.utf8Size_pos
      rw [byteLength_cons]
      rcases List.mem_cons.1 member with here | later
      · rw [here]
        show start < start + character.utf8Size
          ∧ start + character.utf8Size ≤ start + (character.utf8Size + byteLength rest)
        omega
      · have inRest := inductionHypothesis later
        omega

/-- What fits into some room are the characters that end within it. -/
theorem charactersWithin_eq_filter (start room : Nat) (text : List Char) :
    charactersWithin room text
      = ((withEnds start text).filter fun ended => ended.2 ≤ start + room).map Prod.fst := by
  induction text generalizing start room with
  | nil => rfl
  | cons character rest inductionHypothesis =>
      by_cases fits : character.utf8Size ≤ room
      · have sameEnd : start + character.utf8Size + (room - character.utf8Size) = start + room := by
          omega
        rw [charactersWithin, if_pos fits, withEnds,
          List.filter_cons_of_pos (by simpa using fits), List.map_cons,
          inductionHypothesis (start + character.utf8Size), sameEnd]
      · have restBeyond : ∀ ended ∈ withEnds (start + character.utf8Size) rest,
            ¬ ended.2 ≤ start + room := by
          intro ended member
          have bounds := bounds_of_mem_withEnds member
          omega
        rw [charactersWithin, if_neg fits, withEnds,
          List.filter_cons_of_neg (by simpa using fits),
          List.filter_eq_nil_iff.2 (by simpa using restBeyond)]
        rfl

/-- Room beyond the end of a text makes no difference. -/
theorem charactersWithin_eq_charactersEndingBy (room : Nat) (text : List Char) :
    charactersWithin room text = charactersEndingBy (min room (byteLength text)) text := by
  rw [charactersWithin_eq_filter 0, charactersEndingBy]
  congr 1
  refine List.filter_congr fun ended member => ?_
  have bounds := bounds_of_mem_withEnds member
  rw [decide_eq_decide]
  omega

/-! ## Boundaries -/

theorem byteLength_toList (source : String) :
    byteLength source.toList = source.utf8ByteSize := by
  rw [← String.utf8Len_toList]
  induction source.toList with
  | nil => rfl
  | cons character rest inductionHypothesis =>
      rw [byteLength_cons, inductionHypothesis, String.utf8Len_cons, Nat.add_comm]

/-- A run of characters at the head of a text that fits into some room is part of what
fits. -/
theorem isPrefix_charactersWithin {before text : List Char} {room : Nat}
    (initial : before <+: text) (fits : byteLength before ≤ room) :
    before <+: charactersWithin room text := by
  induction before generalizing text room with
  | nil => exact List.nil_prefix
  | cons character before inductionHypothesis =>
      obtain ⟨rest, rfl⟩ := initial
      rw [byteLength_cons] at fits
      have here : character.utf8Size ≤ room := by omega
      rw [List.cons_append, charactersWithin, if_pos here, List.prefix_cons_inj]
      apply inductionHypothesis (List.prefix_append before rest)
      omega

theorem byteLength_le_of_isPrefix {before longer : List Char} (initial : before <+: longer) :
    byteLength before ≤ byteLength longer := by
  obtain ⟨further, rfl⟩ := initial
  rw [byteLength_append]
  omega

/-- An offset is a boundary when a run of whole characters at the head of the text reaches
it. -/
theorem isValid_iff_exists_run {source : String} {offset : Nat} :
    String.Pos.Raw.IsValid source ⟨offset⟩ ↔
      ∃ before, before <+: source.toList ∧ byteLength before = offset := by
  rw [String.Pos.Raw.isValid_iff_exists_append]
  constructor
  · rintro ⟨first, second, rfl, reached⟩
    refine ⟨first.toList, ?_, ?_⟩
    · rw [String.toList_append]
      exact List.prefix_append _ _
    · rw [byteLength_toList]
      exact (congrArg String.Pos.Raw.byteIdx reached).symm
  · rintro ⟨before, ⟨rest, whole⟩, rfl⟩
    refine ⟨String.ofList before, String.ofList rest, ?_, ?_⟩
    · rw [← String.ofList_append, whole, String.ofList_toList]
    · rw [← String.toList_ofList (l := before), byteLength_toList, String.toList_ofList]
      rfl

/-- The byte of a place is the greatest boundary that is not beyond the offset. -/
theorem isGreatest_byte_atOffset (source : String) (offset : Nat) :
    IsGreatest
      {byte | String.Pos.Raw.IsValid source ⟨byte⟩ ∧ byte ≤ min offset source.utf8ByteSize}
      (Position.atOffset source offset).byte := by
  rw [Position.atOffset_eq_after, Position.after_byte, ← byteLength_toList]
  have initial := charactersWithin_isPrefix offset source.toList
  constructor
  · refine ⟨isValid_iff_exists_run.2 ⟨_, initial, rfl⟩, Nat.le_min.2 ⟨?_, ?_⟩⟩
    · exact byteLength_charactersWithin offset source.toList
    · exact byteLength_le_of_isPrefix initial
  · rintro byte ⟨boundary, within⟩
    obtain ⟨before, run, rfl⟩ := isValid_iff_exists_run.1 boundary
    apply byteLength_le_of_isPrefix
    exact isPrefix_charactersWithin run (Nat.le_min.1 within).1

/-- The place of an offset is where one comes who starts at the first line and column and
steps over all characters that end at the offset, or at the end of the text, or before.
Its byte is the greatest boundary up to there. -/
theorem atOffset_scans (source : String) (offset : Nat) :
    Position.atOffset source offset
        = (charactersEndingBy (min offset source.utf8ByteSize) source.toList).foldl
            Position.step { line := 1, column := 1, byte := 0 } ∧
      IsGreatest
        {byte | String.Pos.Raw.IsValid source ⟨byte⟩ ∧ byte ≤ min offset source.utf8ByteSize}
        (Position.atOffset source offset).byte := by
  refine ⟨?_, isGreatest_byte_atOffset source offset⟩
  rw [Position.atOffset_eq_after, charactersWithin_eq_charactersEndingBy, byteLength_toList]
  rfl

/-- An offset inside the character of two bytes, at the start of the second line. -/
example : Position.atOffset "a\né" 3 = { line := 2, column := 1, byte := 2 } := by decide

end SchemaBinding
