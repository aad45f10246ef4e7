import Mathlib.Data.List.DropRight
import SchemaBinding.Proofs.Json.NumberLexeme
import SchemaBinding.Proofs.Json.Node

/-!
Contract: JSON texts by their grammar.

Owns:
- `ParseTree`, a value with its literals as they are written;
- `ParseTree.tokens` and `Spaced`, the tokens of a value and the texts that consist of given
  tokens with blanks between them; and
- `ParseTree.Spelled`, by which a text is one way to write a value.

Does not own: the reading of texts. Trees have no places and cannot be broken.

A tree fixes a text up to its blanks, so two texts that spell one tree differ in nothing but
blanks between tokens.
-/

set_option autoImplicit false

namespace SchemaBinding
namespace Json

/-- A value with its literals as written and its maps in the order of the text. -/
inductive ParseTree where
  | word (value : Word)
  | number (lexeme : NumberLexeme)
  | text (lexeme : TextLexeme)
  | list (items : List ParseTree)
  | map (members : List (TextLexeme × ParseTree))

def Word.characters : Word → List Char
  | .null => ['n', 'u', 'l', 'l']
  | .flag true => ['t', 'r', 'u', 'e']
  | .flag false => ['f', 'a', 'l', 's', 'e']

/-! ## Tokens -/

mutual

def ParseTree.tokens : ParseTree → List (List Char)
  | .word value => [value.characters]
  | .number lexeme => [lexeme.characters]
  | .text lexeme => [lexeme.characters]
  | .list items => ['['] :: (ParseTree.itemTokens items ++ [[']']])
  | .map members => ['\x7b'] :: (ParseTree.memberTokens members ++ [['\x7d']])

def ParseTree.itemTokens : List ParseTree → List (List Char)
  | [] => []
  | [item] => item.tokens
  | item :: rest => item.tokens ++ [','] :: ParseTree.itemTokens rest

def ParseTree.memberTokens : List (TextLexeme × ParseTree) → List (List Char)
  | [] => []
  | [(key, value)] => key.characters :: [':'] :: value.tokens
  | (key, value) :: rest =>
      key.characters :: [':'] :: (value.tokens ++ [','] :: ParseTree.memberTokens rest)

end

/-! ## Blanks -/

def Blank (text : List Char) : Prop :=
  ∀ character ∈ text, isBlank character = true

instance (text : List Char) : Decidable (Blank text) :=
  decidable_of_iff (text.all isBlank = true) List.all_eq_true

/-- A text that consists of the given tokens with blanks before each of them. -/
inductive Spaced : List (List Char) → List Char → Prop where
  | nil : Spaced [] []
  | cons {token blanks text : List Char} {tokens : List (List Char)} (blank : Blank blanks)
      (later : Spaced tokens text) : Spaced (token :: tokens) (blanks ++ (token ++ text))

/-- A text that consists of the tokens of a value, with blanks between and around them. -/
def ParseTree.Spelled (tree : ParseTree) (text : List Char) : Prop :=
  ∃ written blanks, Spaced tree.tokens written ∧ Blank blanks ∧ text = written ++ blanks

theorem skipBlanks_append {blanks : List Char} (blank : Blank blanks) (text : List Char) :
    skipBlanks (blanks ++ text) = skipBlanks text :=
  List.dropWhile_append_of_pos blank

theorem skipBlanks_of_not_blank {first : Char} {more : List Char}
    (notBlank : isBlank first = false) : skipBlanks (first :: more) = first :: more := by
  rw [skipBlanks, List.dropWhile_cons_of_neg]
  rw [notBlank]
  exact Bool.false_ne_true

/-- What stands before the first character that is no blank is blank. -/
theorem exists_blank_of_skipBlanks (text : List Char) :
    ∃ blanks, Blank blanks ∧ text = blanks ++ skipBlanks text :=
  ⟨text.takeWhile isBlank, fun _ => List.all_eq_true.1 List.all_takeWhile _,
    List.takeWhile_append_dropWhile.symm⟩

theorem spaced_cons_iff {token : List Char} {tokens : List (List Char)} {text : List Char} :
    Spaced (token :: tokens) text ↔
      ∃ blanks later, Blank blanks ∧ Spaced tokens later ∧ text = blanks ++ (token ++ later) := by
  constructor
  · intro spaced
    cases spaced with
    | cons blank later => exact ⟨_, _, blank, later, rfl⟩
  · rintro ⟨blanks, later, blank, spaced, rfl⟩
    exact .cons blank spaced

theorem spaced_append_iff {first second : List (List Char)} {text : List Char} :
    Spaced (first ++ second) text ↔
      ∃ before after, Spaced first before ∧ Spaced second after ∧ text = before ++ after := by
  induction first generalizing text with
  | nil =>
      constructor
      · intro spaced
        exact ⟨[], text, .nil, spaced, rfl⟩
      · rintro ⟨before, after, nothing, spaced, rfl⟩
        cases nothing
        exact spaced
  | cons token tokens inductionHypothesis =>
      rw [List.cons_append, spaced_cons_iff]
      constructor
      · rintro ⟨blanks, later, blank, spaced, rfl⟩
        obtain ⟨before, after, front, back, rfl⟩ := inductionHypothesis.1 spaced
        exact ⟨_, after, .cons blank front, back, by simp only [List.append_assoc]⟩
      · rintro ⟨before, after, front, back, rfl⟩
        obtain ⟨blanks, later, blank, spaced, rfl⟩ := spaced_cons_iff.1 front
        exact ⟨blanks, _, blank, inductionHypothesis.2 ⟨later, after, spaced, back, rfl⟩,
          by simp only [List.append_assoc]⟩

/-- A text of a value, with the same blanks before each token. -/
def ParseTree.spread (tree : ParseTree) (blanks : List Char) : String :=
  String.ofList (tree.tokens.flatMap (blanks ++ ·))

theorem spaced_flatMap {blanks : List Char} (blank : Blank blanks) :
    ∀ tokens : List (List Char), Spaced tokens (tokens.flatMap (blanks ++ ·))
  | [] => .nil
  | token :: tokens => by
      rw [List.flatMap_cons, List.append_assoc]
      exact .cons blank (spaced_flatMap blank tokens)

theorem ParseTree.spelled_spread (tree : ParseTree) {blanks : List Char} (blank : Blank blanks) :
    tree.Spelled (tree.spread blanks).toList := by
  rw [spread, String.toList_ofList]
  exact ⟨_, [], spaced_flatMap blank tree.tokens, List.forall_mem_nil _,
    (List.append_nil _).symm⟩

/-! ## How values start -/

theorem startsNumber_of_isDigit {character : Char} (digit : isDigit character = true) :
    NumberLiteral.startsNumber character = true := by
  simp [NumberLiteral.startsNumber, digit]

theorem NumberLexeme.characters_eq_cons (lexeme : NumberLexeme) :
    ∃ first more, lexeme.characters = first :: more ∧
      NumberLiteral.startsNumber first = true := by
  obtain ⟨negative, whole, fraction, exponent, wholeValid, _⟩ := lexeme
  cases negative with
  | true => exact ⟨'-', _, rfl, rfl⟩
  | false =>
      rcases wholeValid with rfl | ⟨⟨nonempty, digits⟩, _⟩
      · exact ⟨'0', _, rfl, rfl⟩
      · obtain ⟨first, others, rfl⟩ := List.exists_cons_of_ne_nil nonempty
        exact ⟨first, _, rfl, startsNumber_of_isDigit (digits first List.mem_cons_self)⟩

theorem Word.characters_eq_cons (value : Word) :
    ∃ first more, value.characters = first :: more ∧ startsValue first = true := by
  cases value with
  | null => exact ⟨'n', _, rfl, rfl⟩
  | flag value =>
      cases value with
      | true => exact ⟨'t', _, rfl, rfl⟩
      | false => exact ⟨'f', _, rfl, rfl⟩

theorem ParseTree.tokens_eq_cons (tree : ParseTree) :
    ∃ first more tokens, tree.tokens = (first :: more) :: tokens ∧
      startsValue first = true := by
  cases tree with
  | word value =>
      obtain ⟨first, more, written, starts⟩ := value.characters_eq_cons
      exact ⟨first, more, [], by rw [tokens, written], starts⟩
  | number lexeme =>
      obtain ⟨first, more, written, starts⟩ := lexeme.characters_eq_cons
      exact ⟨first, more, [], by rw [tokens, written], startsValue_of_startsNumber starts⟩
  | text lexeme => exact ⟨'"', _, [], by rw [tokens]; rfl, rfl⟩
  | list items => exact ⟨'[', [], _, by rw [tokens], rfl⟩
  | map members => exact ⟨'\x7b', [], _, by rw [tokens], rfl⟩

end Json
end SchemaBinding
