import SchemaBinding.Json.Value

/-!
Contract: a text literal that has been written is read back.

Owns:
- the three ways in which a character is written, and the piece that each of them is
  split into; and
- `TextLiteral.ofCharacters_renderText`, by which a written literal ends at its quote and
  stands for the text that was written.

Does not own: literals written by others, whose escapes may be chosen freely.
-/

set_option autoImplicit false

namespace SchemaBinding
namespace Json

open Value (escaped hexDigit)

/-! ## The ways to write a character -/

/-- A character is written with a letter for it, with its code, or as itself. -/
theorem escaped_cases (character : Char) :
    (∃ letter, escaped character = ['\\', letter] ∧ shortEscape? letter = some character) ∨
      (character.toNat < 32 ∧
        escaped character
          = ['\\', 'u', '0', '0', hexDigit (character.toNat / 16),
              hexDigit (character.toNat % 16)]) ∨
      (escaped character = [character] ∧ character ≠ '"' ∧ character ≠ '\\' ∧
        isControl character = false) := by
  unfold escaped
  split
  · exact .inl ⟨'"', rfl, rfl⟩
  · exact .inl ⟨'\\', rfl, rfl⟩
  · exact .inl ⟨'b', rfl, rfl⟩
  · exact .inl ⟨'f', rfl, rfl⟩
  · exact .inl ⟨'n', rfl, rfl⟩
  · exact .inl ⟨'r', rfl, rfl⟩
  · exact .inl ⟨'t', rfl, rfl⟩
  · rename_i notQuote notBackslash _ _ _ _ _
    right
    by_cases control : isControl character = true
    · left
      rw [if_pos control]
      have small : character < ' ' := by simpa [isControl] using control
      exact ⟨small, rfl⟩
    · right
      rw [if_neg control]
      exact ⟨rfl, notQuote, notBackslash, by simpa using control⟩

theorem hexUnit?_control :
    ∀ code < 32,
      hexUnit? '0' '0' (hexDigit (code / 16)) (hexDigit (code % 16)) = some code := by
  decide

namespace TextLiteral

/-- Something follows a literal exactly when it ends at a quote. -/
theorem after?_eq_some_iff {literal : TextLiteral} {rest : Mark} :
    literal.after? = some rest ↔ literal.ending = .closed rest := by
  unfold after?
  cases literal.ending with
  | closed after => rw [Option.some.injEq, TextEnding.closed.injEq]
  | endOfSource | control _ | unknownEscape _ | badUnit _ => exact ⟨nofun, nofun⟩

/-! ## Splitting one written character -/

theorem ofCharacters_of_short {letter character : Char} (rest : List Char)
    (known : shortEscape? letter = some character) :
    ofCharacters ('\\' :: letter :: rest)
      = cons ('\\' :: letter :: rest) (.short character) (ofCharacters rest) := by
  have notUnit : letter ≠ 'u' := by
    rintro rfl
    cases known
  rw [ofCharacters, known]
  · intro first second third fourth more isUnit
    exact absurd isUnit notUnit
  · exact notUnit

theorem ofCharacters_of_unit {first second third fourth : Char} {code : Nat}
    (rest : List Char) (value : hexUnit? first second third fourth = some code) :
    ofCharacters ('\\' :: 'u' :: first :: second :: third :: fourth :: rest)
      = cons ('\\' :: 'u' :: first :: second :: third :: fourth :: rest) (.unit code)
          (ofCharacters rest) := by
  rw [ofCharacters, value]

theorem ofCharacters_of_plain {character : Char} (rest : List Char)
    (notQuote : character ≠ '"') (notBackslash : character ≠ '\\')
    (notControl : isControl character = false) :
    ofCharacters (character :: rest)
      = cons (character :: rest) (.plain character) (ofCharacters rest) := by
  rw [ofCharacters, notControl]
  · rfl
  · exact notQuote
  all_goals
    intros
    exact notBackslash ‹_›

/-- A written character is split into one piece, which stands for the character. -/
theorem ofCharacters_escaped (character : Char) (rest : List Char) :
    ∃ mark piece,
      ofCharacters (escaped character ++ rest) = cons mark piece (ofCharacters rest) ∧
        ∀ ending pieces,
          characters ending ((mark, piece) :: pieces)
            = (characters ending pieces).map fun later => character :: later := by
  rcases escaped_cases character with
    ⟨letter, written, known⟩ | ⟨small, written⟩ |
      ⟨written, notQuote, notBackslash, notControl⟩
  · rw [written]
    refine ⟨_, _, ofCharacters_of_short rest known, ?_⟩
    intro ending pieces
    rw [characters]
    rfl
  · rw [written]
    refine ⟨_, _, ofCharacters_of_unit rest (hexUnit?_control _ small), ?_⟩
    intro ending pieces
    have notTrail : isTrail character.toNat = false := by
      simp only [isTrail, Bool.and_eq_false_iff, decide_eq_false_iff_not]
      omega
    have notLead : isLead character.toNat = false := by
      simp only [isLead, Bool.and_eq_false_iff, decide_eq_false_iff_not]
      omega
    rw [characters.eq_def]
    simp only [notTrail, notLead, Bool.false_eq_true, if_false, Char.ofNat_toNat]
    rfl
  · rw [written]
    refine ⟨_, _, ofCharacters_of_plain rest notQuote notBackslash notControl, ?_⟩
    intro ending pieces
    rw [characters]
    rfl

/-! ## Whole literals -/

theorem ofCharacters_written (rest : List Char) :
    ∀ text : List Char,
      (ofCharacters (text.flatMap escaped ++ '"' :: rest)).ending = .closed rest ∧
        characters (.closed rest) (ofCharacters (text.flatMap escaped ++ '"' :: rest)).pieces
          = .ok text
  | [] => ⟨rfl, rfl⟩
  | character :: later => by
      obtain ⟨ends, reads⟩ := ofCharacters_written rest later
      obtain ⟨mark, piece, split, standsFor⟩ :=
        ofCharacters_escaped character (later.flatMap escaped ++ '"' :: rest)
      rw [List.flatMap_cons, List.append_assoc, split]
      refine ⟨ends, ?_⟩
      rw [cons, standsFor, reads]
      rfl

/-- A written literal ends at its closing quote and stands for the text that was
written. -/
theorem ofCharacters_renderText (text : String) (rest : List Char) :
    ∃ more, Value.renderText text ++ rest = '"' :: more ∧
      (ofCharacters more).ending = .closed rest ∧
        (ofCharacters more).content = .ok text := by
  obtain ⟨ends, reads⟩ := ofCharacters_written rest text.toList
  refine ⟨text.toList.flatMap escaped ++ '"' :: rest, ?_, ends, ?_⟩
  · rw [Value.renderText, List.cons_append, List.cons_append, List.append_assoc]
    rfl
  · rw [content, ends, reads]
    exact congrArg Except.ok String.ofList_toList

end TextLiteral

end Json
end SchemaBinding
