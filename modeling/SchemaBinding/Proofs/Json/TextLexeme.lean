import SchemaBinding.Proofs.Json.TextLiteral

/-!
Contract: text literals as anybody may write them.

Owns:
- `WrittenText`, the grammar of what stands between the quotes of a literal, and
  `TextLexeme`, a literal that obeys it;
- `TextLexeme.text?`, the text that a lexeme stands for, if it stands for one; and
- the two directions between the grammar and the splitting of literals: a lexeme is split
  off whole, and what is split off at a quote is a lexeme.

Does not own: the escapes that a writer would choose.

A lexeme may be written well and stand for nothing, when one half of a surrogate pair lacks
the other. The grammar does not ask for the other half, since literals that are passed over
need not have it.
-/

set_option autoImplicit false

namespace SchemaBinding
namespace Json

/-- What may stand between the quotes of a text literal. -/
inductive WrittenText : List Char → Prop where
  | nil : WrittenText []
  | plain {character : Char} {rest : List Char} (notQuote : character ≠ '"')
      (notBackslash : character ≠ '\\') (notControl : isControl character = false)
      (later : WrittenText rest) : WrittenText (character :: rest)
  | short {letter character : Char} {rest : List Char}
      (known : shortEscape? letter = some character) (later : WrittenText rest) :
      WrittenText ('\\' :: letter :: rest)
  | unit {first second third fourth : Char} {code : Nat} {rest : List Char}
      (value : hexUnit? first second third fourth = some code) (later : WrittenText rest) :
      WrittenText ('\\' :: 'u' :: first :: second :: third :: fourth :: rest)

/-- A character that stands for itself. -/
def isPlain (character : Char) : Bool :=
  character != '"' && character != '\\' && !isControl character

/-- Characters that stand for themselves may be written as they are. -/
theorem writtenText_of_plain :
    ∀ {text : List Char}, text.all isPlain = true → WrittenText text
  | [], _ => .nil
  | character :: rest, plain => by
      rw [List.all_cons, Bool.and_eq_true] at plain
      simp only [isPlain, Bool.and_eq_true, bne_iff_ne, Bool.not_eq_true'] at plain
      obtain ⟨⟨⟨notQuote, notBackslash⟩, notControl⟩, others⟩ := plain
      exact .plain notQuote notBackslash notControl (writtenText_of_plain others)

/-! ## Splitting -/

/-- A literal ends at the quote after what is written. -/
theorem WrittenText.ending {written : List Char} (valid : WrittenText written) (rest : Mark) :
    (TextLiteral.ofCharacters (written ++ '"' :: rest)).ending = .closed rest := by
  induction valid with
  | nil => rfl
  | plain notQuote notBackslash notControl _ inductionHypothesis =>
      rw [List.cons_append,
        TextLiteral.ofCharacters_of_plain _ notQuote notBackslash notControl]
      exact inductionHypothesis
  | short known _ inductionHypothesis =>
      rw [List.cons_append, List.cons_append, TextLiteral.ofCharacters_of_short _ known]
      exact inductionHypothesis
  | unit value _ inductionHypothesis =>
      simp only [List.cons_append]
      rw [TextLiteral.ofCharacters_of_unit _ value]
      exact inductionHypothesis

theorem TextLiteral.map_pieces_cons (mark : Mark) (piece : Piece) (literal : TextLiteral) :
    (cons mark piece literal).pieces.map Prod.snd
      = piece :: literal.pieces.map Prod.snd :=
  rfl

/-- A literal is split into the same pieces whatever follows it, but for their marks. -/
theorem WrittenText.pieces_eq {written : List Char} (valid : WrittenText written)
    (rest other : Mark) :
    (TextLiteral.ofCharacters (written ++ '"' :: rest)).pieces.map Prod.snd
      = (TextLiteral.ofCharacters (written ++ '"' :: other)).pieces.map Prod.snd := by
  induction valid with
  | nil => rfl
  | plain notQuote notBackslash notControl _ inductionHypothesis =>
      rw [List.cons_append, List.cons_append,
        TextLiteral.ofCharacters_of_plain _ notQuote notBackslash notControl,
        TextLiteral.ofCharacters_of_plain _ notQuote notBackslash notControl,
        TextLiteral.map_pieces_cons, TextLiteral.map_pieces_cons, inductionHypothesis]
  | short known _ inductionHypothesis =>
      simp only [List.cons_append]
      rw [TextLiteral.ofCharacters_of_short _ known, TextLiteral.ofCharacters_of_short _ known,
        TextLiteral.map_pieces_cons, TextLiteral.map_pieces_cons, inductionHypothesis]
  | unit value _ inductionHypothesis =>
      simp only [List.cons_append]
      rw [TextLiteral.ofCharacters_of_unit _ value, TextLiteral.ofCharacters_of_unit _ value,
        TextLiteral.map_pieces_cons, TextLiteral.map_pieces_cons, inductionHypothesis]

/-- What is split off up to a quote obeys the grammar. -/
theorem exists_writtenText_of_closed {text : List Char} {rest : Mark}
    (closed : (TextLiteral.ofCharacters text).ending = .closed rest) :
    ∃ written, WrittenText written ∧ text = written ++ '"' :: rest := by
  fun_induction TextLiteral.ofCharacters text with
  | case1 => cases closed
  | case2 after =>
      cases closed
      exact ⟨[], .nil, rfl⟩
  | case3 => cases closed
  | case4 first second third fourth later code value inductionHypothesis =>
      obtain ⟨written, valid, split⟩ := inductionHypothesis closed
      exact ⟨_, .unit value valid, by rw [split]; rfl⟩
  | case5 => cases closed
  | case6 => cases closed
  | case7 letter later _ _ character known inductionHypothesis =>
      obtain ⟨written, valid, split⟩ := inductionHypothesis closed
      exact ⟨_, .short known valid, by rw [split]; rfl⟩
  | case8 => cases closed
  | case9 => cases closed
  | case10 character later notQuote notAlone _ _ notEscape notControl inductionHypothesis =>
      obtain ⟨written, valid, split⟩ := inductionHypothesis closed
      have notBackslash : character ≠ '\\' := by
        intro backslash
        cases later with
        | nil => exact notAlone backslash rfl
        | cons letter more => exact notEscape letter more backslash rfl
      refine ⟨_, .plain notQuote notBackslash ?_ valid, by rw [split]; rfl⟩
      exact Bool.not_eq_true _ ▸ notControl

/-! ## What a literal stands for -/

theorem toOption_map {α β : Type} (function : α → β) (result : Except Fault α) :
    (result.map function).toOption = result.toOption.map function := by
  cases result with
  | ok _ => rfl
  | error _ => rfl

theorem toOption_return {α β : Type} (function : α → β) (result : Except Fault α) :
    (do return function (← result) : Except Fault β).toOption
      = result.toOption.map function := by
  cases result with
  | ok _ => rfl
  | error _ => rfl

theorem toOption_eq_some_iff {α : Type} {result : Except Fault α} {content : α} :
    result.toOption = some content ↔ result = .ok content := by
  cases result with
  | ok own => simp [Except.toOption]
  | error _ => simp [Except.toOption]

theorem exists_marked_of_map_eq_cons {piece : Piece} {rest : List Piece}
    {others : List (Mark × Piece)} (same : piece :: rest = others.map Prod.snd) :
    ∃ mark later, others = (mark, piece) :: later ∧ rest = later.map Prod.snd := by
  obtain ⟨⟨mark, _⟩, later, rfl, rfl, rfl⟩ := List.map_eq_cons_iff.1 same.symm
  exact ⟨mark, later, rfl, rfl⟩

/-- Marks play no part in the text that pieces stand for. -/
theorem characters_toOption_eq {after otherAfter : Mark} {pieces others : List (Mark × Piece)}
    (same : pieces.map Prod.snd = others.map Prod.snd) :
    (TextLiteral.characters (.closed after) pieces).toOption
      = (TextLiteral.characters (.closed otherAfter) others).toOption := by
  fun_induction TextLiteral.characters (.closed after) pieces generalizing others with
  | case1 =>
      cases List.map_eq_nil_iff.1 same.symm
      rfl
  | case2 notClosed => cases notClosed
  | case3 _ notClosed | case4 _ notClosed | case5 _ notClosed => cases notClosed
  | case6 _ character rest inductionHypothesis =>
      obtain ⟨_, later, rfl, sameLater⟩ := exists_marked_of_map_eq_cons same
      rw [TextLiteral.characters, toOption_return, toOption_return,
        inductionHypothesis sameLater]
  | case7 _ character rest inductionHypothesis =>
      obtain ⟨_, later, rfl, sameLater⟩ := exists_marked_of_map_eq_cons same
      rw [TextLiteral.characters, toOption_return, toOption_return,
        inductionHypothesis sameLater]
  | case8 mark code rest trail =>
      obtain ⟨_, later, rfl, _⟩ := exists_marked_of_map_eq_cons same
      rw [TextLiteral.characters.eq_def]
      simp only [trail, if_true]
      rfl
  | case9 mark code notTrail lead second trail more isTrail inductionHypothesis =>
      obtain ⟨_, _, rfl, sameRest⟩ := exists_marked_of_map_eq_cons same
      obtain ⟨_, later, rfl, sameLater⟩ := exists_marked_of_map_eq_cons sameRest
      rw [TextLiteral.characters.eq_def (.closed otherAfter)]
      simp only [notTrail, lead, isTrail, if_true]
      rw [toOption_return, inductionHypothesis sameLater, ← toOption_return]
      rfl
  | case10 mark code notTrail lead second trail more notSecond =>
      obtain ⟨_, _, rfl, sameRest⟩ := exists_marked_of_map_eq_cons same
      obtain ⟨_, later, rfl, _⟩ := exists_marked_of_map_eq_cons sameRest
      rw [TextLiteral.characters.eq_def]
      simp only [notTrail, lead, notSecond, if_true]
      rfl
  | case11 mark code notTrail lead rest noUnit =>
      obtain ⟨_, later, rfl, sameLater⟩ := exists_marked_of_map_eq_cons same
      rw [TextLiteral.characters.eq_def]
      simp only [notTrail, lead, Bool.false_eq_true, if_false, if_true]
      split
      · obtain ⟨second, more, found, _⟩ := exists_marked_of_map_eq_cons sameLater.symm
        exact absurd found (noUnit second _ more)
      · rfl
  | case12 mark code rest notTrail notLead inductionHypothesis =>
      obtain ⟨_, later, rfl, sameLater⟩ := exists_marked_of_map_eq_cons same
      rw [TextLiteral.characters.eq_def (.closed otherAfter)]
      simp only [notTrail, notLead]
      rw [toOption_return, inductionHypothesis sameLater, ← toOption_return]
      rfl

/-! ## Lexemes -/

/-- A text literal without its quotes. -/
structure TextLexeme where
  written : List Char
  valid : WrittenText written

namespace TextLexeme

/-- The lexeme between its quotes. -/
def characters (lexeme : TextLexeme) : List Char :=
  '"' :: lexeme.written ++ ['"']

theorem characters_eq (lexeme : TextLexeme) :
    lexeme.characters = '"' :: (lexeme.written ++ ['"']) :=
  rfl

/-- The literal that a reader finds for a lexeme before `rest`. -/
def literal (lexeme : TextLexeme) (rest : Mark) : TextLiteral :=
  .ofCharacters (lexeme.written ++ '"' :: rest)

/-- The text that a lexeme stands for. There is none for half a surrogate pair. -/
def text? (lexeme : TextLexeme) : Option String :=
  (lexeme.literal []).content.toOption

/-- A lexeme whose characters stand for themselves. -/
def ofPlain (written : List Char) (plain : written.all isPlain = true := by decide) :
    TextLexeme where
  written
  valid := writtenText_of_plain plain

theorem after?_literal (lexeme : TextLexeme) (rest : Mark) :
    (lexeme.literal rest).after? = some rest :=
  TextLiteral.after?_eq_some_iff.2 (lexeme.valid.ending rest)

theorem wellFormed_literal (lexeme : TextLexeme) (rest : Mark) :
    (lexeme.literal rest).wellFormed = .ok () := by
  rw [TextLiteral.wellFormed, literal, lexeme.valid.ending]

/-- A reader finds the text that a lexeme stands for, whatever follows it. -/
theorem content_literal_eq_ok_iff (lexeme : TextLexeme) (rest : Mark) {text : String} :
    (lexeme.literal rest).content = .ok text ↔ lexeme.text? = some text := by
  have same :
      (lexeme.literal rest).content.toOption = (lexeme.literal []).content.toOption := by
    unfold TextLiteral.content
    rw [toOption_map, toOption_map]
    congr 1
    unfold literal
    rw [lexeme.valid.ending, lexeme.valid.ending]
    exact characters_toOption_eq (lexeme.valid.pieces_eq rest [])
  rw [text?, ← same, toOption_eq_some_iff]

/-- What is split off up to a quote is the literal of a lexeme. -/
theorem exists_literal_of_after? {text : List Char} {rest : Mark}
    (ends : (TextLiteral.ofCharacters text).after? = some rest) :
    ∃ lexeme : TextLexeme, text = lexeme.written ++ '"' :: rest ∧
      TextLiteral.ofCharacters text = lexeme.literal rest := by
  obtain ⟨written, valid, split⟩ :=
    exists_writtenText_of_closed (TextLiteral.after?_eq_some_iff.1 ends)
  exact ⟨⟨written, valid⟩, split, congrArg _ split⟩

end TextLexeme

end Json
end SchemaBinding
