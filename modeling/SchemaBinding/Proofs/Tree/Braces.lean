import SchemaBinding.Proofs.Source.Movement
import SchemaBinding.Proofs.Tree.Construction
import SchemaBinding.Proofs.Tree.Layout

/-!
Contract: the braces of a body, found in the text that the body was read from.

Owns:
- `Body.BracedBy`, what it means that two spans are the braces of a body, here and in
  every block made with it; and
- `bracedBy_ofOffsets`, by which they are the first and the last byte of the body.

Does not own: any reading of the text between the braces. A body that starts and ends
with other bytes is out of scope.

Braces are computed without the text, by one byte and one column from the edges of the
body. That is right since a brace is one byte and no newline.
-/

set_option autoImplicit false

namespace SchemaBinding

/-- The two spans are the braces of the body: one byte each, inside the body and apart,
and stored in every block that is made of the body or recovered with it. -/
structure Body.BracedBy (body : Body) (opening closing : Span) : Prop where
  braces : body.braces = (opening, closing)
  opening_length : opening.length = 1
  closing_length : closing.length = 1
  opening_inside : opening.file = body.span.file ∧ opening.Inside body.span
  closing_inside : closing.file = body.span.file ∧ closing.Inside body.span
  apart : opening.overlaps closing = false
  stored :
    ∀ typeName typeSpan,
      (Block.unlabelled typeName typeSpan body).openBrace = opening ∧
        (Block.unlabelled typeName typeSpan body).closeBrace = closing
  recovered :
    ∀ handle : BlockHandle, handle.body.native? = some body →
      ∃ block,
        BlockHandle.toBlock? (some handle) = .ok (some block) ∧
          block.openBrace = opening ∧ block.closeBrace = closing

/-! ## Braces in a text -/

section

variable {file source : String} {start stop : Nat}

/-- A brace is a character of its own, so the place after it is one column and one byte
further on. -/
theorem bytes_of_brace {brace : Char} (isBrace : brace = '{' ∨ brace = '}')
    (here : source.toUTF8[start]? = some brace.toUInt8) :
    (Position.atOffset source start).byte = start ∧
      (Position.atOffset source (start + 1)).byte = start + 1 ∧
      (Position.atOffset source start).advance 1 = Position.atOffset source (start + 1) ∧
      (Position.atOffset source (start + 1)).retreat 1 = Position.atOffset source start := by
  have short : brace.utf8Size = 1 := by
    rcases isBrace with rfl | rfl <;> decide
  have sameLine : brace ≠ '\n' := by
    rcases isBrace with rfl | rfl <;> decide
  obtain ⟨byte, forward, backward⟩ := Position.atOffset_succ short sameLine here
  have next : (Position.atOffset source (start + 1)).byte = start + 1 := by
    rw [← forward]
    show (Position.atOffset source start).byte + 1 = start + 1
    rw [byte]
  exact ⟨byte, next, forward, backward⟩

/-- Two braces of different kinds are two bytes. -/
theorem add_two_le_of_braces (opening : source.toUTF8[start]? = some '{'.toUInt8)
    (closing : source.toUTF8[stop - 1]? = some '}'.toUInt8) (order : start < stop) :
    start + 2 ≤ stop := by
  have different : start ≠ stop - 1 := by
    intro same
    rw [← same, opening] at closing
    exact absurd closing (by decide)
  omega

/-- A body that stands in a text from its opening to its closing brace has its braces
there. -/
theorem Body.bracedBy_of_span {body : Body}
    (spanned : body.span = Span.ofOffsets file source start stop)
    (opening : source.toUTF8[start]? = some '{'.toUInt8)
    (closing : source.toUTF8[stop - 1]? = some '}'.toUInt8) (order : start < stop) :
    body.BracedBy (Span.ofOffsets file source start (start + 1))
      (Span.ofOffsets file source (stop - 1) stop) := by
  have twoBytes := add_two_le_of_braces opening closing order
  have last : stop - 1 + 1 = stop := by omega
  obtain ⟨startByte, afterOpening, forward, _⟩ := bytes_of_brace (Or.inl rfl) opening
  obtain ⟨beforeClosing, stopByte, _, backward⟩ := bytes_of_brace (Or.inr rfl) closing
  rw [last] at stopByte backward
  have braces :
      body.braces
        = (Span.ofOffsets file source start (start + 1),
            Span.ofOffsets file source (stop - 1) stop) := by
    rw [Body.braces, spanned]
    simp only [Span.ofOffsets, forward, backward]
  refine ⟨braces, ?_, ?_, ?_, ?_, ?_, ?_, ?_⟩
  · show (Position.atOffset source (start + 1)).byte - (Position.atOffset source start).byte = 1
    rw [afterOpening, startByte]
    omega
  · show (Position.atOffset source stop).byte - (Position.atOffset source (stop - 1)).byte = 1
    rw [stopByte, beforeClosing]
    omega
  · rw [spanned, Span.inside_iff]
    refine ⟨rfl, fun _ => ?_⟩
    simp only [Span.ofOffsets, startByte, afterOpening, stopByte]
    omega
  · rw [spanned, Span.inside_iff]
    refine ⟨rfl, fun _ => ?_⟩
    simp only [Span.ofOffsets, startByte, beforeClosing, stopByte]
    omega
  · have inOrder : ¬ stop - 1 < start + 1 := by omega
    simp [Span.overlaps, Span.ofOffsets, afterOpening, beforeClosing, inOrder]
  · intro typeName typeSpan
    simp only [Block.unlabelled, braces, and_self]
  · intro handle isNative
    obtain ⟨block, recovered, ownBody⟩ := BlockHandle.exists_toBlock_of_native isNative
    obtain ⟨_, _, _, _, _, stored⟩ := BlockHandle.toBlock_eq_ok_iff.1 recovered
    rw [ownBody, braces, Prod.mk.injEq] at stored
    exact ⟨block, BlockHandle.toBlock?_of_toBlock recovered, stored⟩

end

/-- Where a text has an opening brace at `start` and a closing brace before `stop`, these
are the braces of the body between, in line, column and byte. They touch just when
nothing stands between them. -/
theorem bracedBy_ofOffsets (file source : String) (start stop : Nat)
    (opening : source.toUTF8[start]? = some '{'.toUInt8)
    (closing : source.toUTF8[stop - 1]? = some '}'.toUInt8) (order : start < stop) :
    (Body.empty (Span.ofOffsets file source start stop)).BracedBy
        (Span.ofOffsets file source start (start + 1))
        (Span.ofOffsets file source (stop - 1) stop) ∧
      ((Span.ofOffsets file source start (start + 1)).stop
          = (Span.ofOffsets file source (stop - 1) stop).start ↔
        stop = start + 2) := by
  refine ⟨Body.bracedBy_of_span rfl opening closing order, ?_⟩
  constructor
  · intro touching
    obtain ⟨_, afterOpening, _, _⟩ := bytes_of_brace (Or.inl rfl) opening
    obtain ⟨beforeClosing, _, _, _⟩ := bytes_of_brace (Or.inr rfl) closing
    have bytes := congrArg Position.byte touching
    simp only [Span.ofOffsets, afterOpening, beforeClosing] at bytes
    omega
  · rintro rfl
    rfl

/-- A body of two lines, the first of which has a character of two bytes. -/
def accentedText : String := "é \x7b\n\x7d"

/-- The closing brace stands alone on its line. -/
theorem accentedText_braced :
    accentedText.toUTF8[3]? = some '{'.toUInt8 ∧
      accentedText.toUTF8[6 - 1]? = some '}'.toUInt8 ∧ 3 < 6 ∧
      (Body.empty (Span.ofOffsets "main.conf" accentedText 3 6)).BracedBy
        (Span.ofOffsets "main.conf" accentedText 3 4)
        (Span.ofOffsets "main.conf" accentedText 5 6) ∧
      ((Span.ofOffsets "main.conf" accentedText 3 4).stop
          = (Span.ofOffsets "main.conf" accentedText 5 6).start ↔ 6 = 3 + 2) :=
  have opening : accentedText.toUTF8[3]? = some '{'.toUInt8 := by decide
  have closing : accentedText.toUTF8[6 - 1]? = some '}'.toUInt8 := by decide
  ⟨opening, closing, by decide,
    bracedBy_ofOffsets "main.conf" accentedText 3 6 opening closing (by decide)⟩

end SchemaBinding
