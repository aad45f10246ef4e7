import SchemaBinding.Proofs.Json.NumberLiteral
import SchemaBinding.Proofs.Json.TextLexeme

/-!
Contract: number literals as anybody may write them.

Owns:
- `NumberLexeme`, a literal that obeys the grammar, split into its parts;
- `NumberLexeme.number?`, the number that a lexeme stands for, if it is not too great; and
- the two directions between the grammar and the splitting of literals: a lexeme is split
  off whole before what cannot go on with it, and a complete literal is a lexeme.

Does not own: the value of a literal as such.
-/

set_option autoImplicit false

namespace SchemaBinding
namespace Json

/-- A run of at least one digit. -/
def Digits (text : List Char) : Prop :=
  text ≠ [] ∧ ∀ digit ∈ text, isDigit digit = true

instance (text : List Char) : Decidable (Digits text) :=
  inferInstanceAs (Decidable (_ ∧ _))

/-- The exponent of a number, from its letter on. -/
structure ExponentLexeme where
  letter : Char
  sign : List Char
  digits : List Char
  letterValid : letter = 'e' ∨ letter = 'E'
  signValid : sign = [] ∨ sign = ['+'] ∨ sign = ['-']
  digitsValid : Digits digits

namespace ExponentLexeme

def characters (lexeme : ExponentLexeme) : List Char :=
  lexeme.letter :: (lexeme.sign ++ lexeme.digits)

/-- What a reader finds for the exponent before `rest`. -/
def literal (lexeme : ExponentLexeme) (rest : Mark) : Exponent :=
  { negative := lexeme.sign == ['-']
    digits := lexeme.digits
    mark := lexeme.digits ++ rest }

end ExponentLexeme

/-- A number as it may be written. The fraction is empty when there is no point. -/
structure NumberLexeme where
  negative : Bool := false
  whole : List Char
  fraction : List Char := []
  exponent : Option ExponentLexeme := none
  /-- Only a single zero starts with a zero. -/
  wholeValid : whole = ['0'] ∨ (Digits whole ∧ whole.head? ≠ some '0')
  fractionValid : ∀ digit ∈ fraction, isDigit digit = true

/-- What stands between the integer part of a number and its end. -/
def afterWholeCharacters (fraction : List Char) (exponent : Option ExponentLexeme) : List Char :=
  (if fraction.isEmpty then [] else '.' :: fraction)
    ++ (exponent.map ExponentLexeme.characters).getD []

namespace NumberLexeme

def characters (lexeme : NumberLexeme) : List Char :=
  (if lexeme.negative then ['-'] else [])
    ++ (lexeme.whole ++ afterWholeCharacters lexeme.fraction lexeme.exponent)

/-- What a reader finds for the number before `rest`. -/
def literal (lexeme : NumberLexeme) (rest : Mark) : NumberLiteral :=
  { negative := lexeme.negative
    whole := lexeme.whole
    fraction := lexeme.fraction
    exponent := lexeme.exponent.map (·.literal rest)
    ending := .complete rest }

/-- The number that a lexeme stands for, if it is not too great. -/
def number? (lexeme : NumberLexeme) : Option Number :=
  (lexeme.literal []).value.toOption

end NumberLexeme

/-! ## Runs of digits -/

/-- Digits are taken up to the first character that is none. -/
theorem takeWhile_digits {digits rest : List Char}
    (allDigits : ∀ digit ∈ digits, isDigit digit = true) (stops : rest.takeWhile isDigit = []) :
    (digits ++ rest).takeWhile isDigit = digits ∧
      (digits ++ rest).dropWhile isDigit = rest := by
  have kept : rest.dropWhile isDigit = rest := by
    have whole := List.takeWhile_append_dropWhile (p := isDigit) (l := rest)
    rw [stops] at whole
    exact whole
  rw [List.takeWhile_append_of_pos allDigits, List.dropWhile_append_of_pos allDigits, stops,
    kept, List.append_nil]
  exact ⟨rfl, rfl⟩

theorem takeWhile_dropWhile_digits (text : List Char) :
    (text.dropWhile isDigit).takeWhile isDigit = [] := by
  cases left : text.dropWhile isDigit with
  | nil => rfl
  | cons first others =>
      have noDigit := List.head?_dropWhile_not isDigit text
      rw [left] at noDigit
      rw [List.takeWhile_cons_of_neg]
      simpa using noDigit

theorem digits_takeWhile {text : List Char} (some : (text.takeWhile isDigit).isEmpty = false) :
    Digits (text.takeWhile isDigit) :=
  ⟨List.isEmpty_eq_false_iff.1 some, List.all_eq_true.1 List.all_takeWhile⟩

/-! ## The exponent -/

/-- An exponent is split into its sign and what follows it. -/
theorem exponentOf_eq (text : List Char) :
    ∃ sign, (sign = [] ∨ sign = ['+'] ∨ sign = ['-']) ∧
      text = sign ++ (NumberLiteral.exponentOf text).mark ∧
      NumberLiteral.exponentOf text
        = { negative := sign == ['-']
            digits := (NumberLiteral.exponentOf text).mark.takeWhile isDigit
            mark := (NumberLiteral.exponentOf text).mark } := by
  unfold NumberLiteral.exponentOf
  split
  · exact ⟨['+'], .inr (.inl rfl), rfl, rfl⟩
  · exact ⟨['-'], .inr (.inr rfl), rfl, rfl⟩
  · exact ⟨[], .inl rfl, rfl, rfl⟩

/-- An exponent without a sign starts with a digit, which is not taken for a sign. -/
theorem exponentOf_append {sign digits rest : List Char}
    (signValid : sign = [] ∨ sign = ['+'] ∨ sign = ['-']) (digitsValid : Digits digits)
    (stops : rest.takeWhile isDigit = []) :
    NumberLiteral.exponentOf (sign ++ digits ++ rest)
      = { negative := sign == ['-'], digits, mark := digits ++ rest } := by
  have taken := (takeWhile_digits digitsValid.2 stops).1
  rcases signValid with rfl | rfl | rfl
  · obtain ⟨first, others, rfl⟩ := List.exists_cons_of_ne_nil digitsValid.1
    have digit := digitsValid.2 first List.mem_cons_self
    unfold NumberLiteral.exponentOf
    split
    · rename_i same
      cases (List.cons.inj same).1
      cases digit
    · rename_i same
      cases (List.cons.inj same).1
      cases digit
    · simp only [List.nil_append, taken]
      rfl
  · simp only [NumberLiteral.exponentOf, List.cons_append, List.nil_append, taken]
    rfl
  · simp only [NumberLiteral.exponentOf, List.cons_append, List.nil_append, taken]
    rfl

/-! ## A number before what cannot go on with it -/

section

variable (negative : Bool) (whole : List Char) {rest : List Char}

theorem stops_of_endsNumber (ends : endsNumber rest = true) : rest.takeWhile isDigit = [] :=
  (NumberLiteral.takeWhile_of_endsNumber ends).1

theorem stops_exponent (exponent : Option ExponentLexeme) (stops : rest.takeWhile isDigit = []) :
    ((exponent.map ExponentLexeme.characters).getD [] ++ rest).takeWhile isDigit = [] := by
  cases exponent with
  | none => exact stops
  | some lexeme =>
      obtain ⟨letter, _, _, rfl | rfl, _, _⟩ := lexeme
      · rfl
      · rfl

theorem stops_afterWhole (fraction : List Char) (exponent : Option ExponentLexeme)
    (stops : rest.takeWhile isDigit = []) :
    (afterWholeCharacters fraction exponent ++ rest).takeWhile isDigit = [] := by
  cases fraction with
  | nil => exact stops_exponent exponent stops
  | cons _ _ => rfl

theorem afterFraction_append (fraction : List Char) (exponent : Option ExponentLexeme)
    (ends : endsNumber rest = true) :
    NumberLiteral.afterFraction negative whole fraction
        ((exponent.map ExponentLexeme.characters).getD [] ++ rest)
      = { negative, whole, fraction
          exponent := exponent.map (·.literal rest)
          ending := .complete rest } := by
  cases exponent with
  | none =>
      rw [Option.map_none, Option.getD_none, List.nil_append]
      unfold NumberLiteral.afterFraction
      split
      · cases ends
      · cases ends
      · rfl
  | some lexeme =>
      have stops := stops_of_endsNumber ends
      have exponent := exponentOf_append lexeme.signValid lexeme.digitsValid stops
      have dropped := (takeWhile_digits lexeme.digitsValid.2 stops).2
      have nonempty : lexeme.digits.isEmpty = false :=
        List.isEmpty_eq_false_iff.2 lexeme.digitsValid.1
      have text : lexeme.characters ++ rest
          = lexeme.letter :: (lexeme.sign ++ lexeme.digits ++ rest) := rfl
      rw [Option.map_some, Option.getD_some, text]
      rcases lexeme.letterValid with isLetter | isLetter
      · rw [isLetter]
        simp only [NumberLiteral.afterFraction, exponent, nonempty, dropped]
        rfl
      · rw [isLetter]
        simp only [NumberLiteral.afterFraction, exponent, nonempty, dropped]
        rfl

theorem afterWhole_append {fraction : List Char} (exponent : Option ExponentLexeme)
    (allDigits : ∀ digit ∈ fraction, isDigit digit = true) (ends : endsNumber rest = true) :
    NumberLiteral.afterWhole negative whole (afterWholeCharacters fraction exponent ++ rest)
      = { negative, whole, fraction
          exponent := exponent.map (·.literal rest)
          ending := .complete rest } := by
  have found := afterFraction_append negative whole fraction exponent ends
  cases fraction with
  | nil =>
      rw [← found]
      -- No point stands here: what follows is a letter, or what cannot go on with a number.
      unfold NumberLiteral.afterWhole
      split
      · rename_i point
        cases exponent with
        | none =>
            rw [show rest = '.' :: _ from point] at ends
            cases ends
        | some lexeme =>
            obtain ⟨letter, _, _, rfl | rfl, _, _⟩ := lexeme
            · cases point
            · cases point
      · rfl
  | cons first others =>
      obtain ⟨taken, dropped⟩ :=
        takeWhile_digits allDigits (stops_exponent exponent (stops_of_endsNumber ends))
      have text : afterWholeCharacters (first :: others) exponent ++ rest
          = '.' :: ((first :: others)
            ++ ((exponent.map ExponentLexeme.characters).getD [] ++ rest)) := by
        simp [afterWholeCharacters]
      rw [text]
      simp only [NumberLiteral.afterWhole, taken, dropped]
      exact found

theorem afterSign_append {fraction : List Char} (exponent : Option ExponentLexeme)
    (wholeValid : whole = ['0'] ∨ (Digits whole ∧ whole.head? ≠ some '0'))
    (allDigits : ∀ digit ∈ fraction, isDigit digit = true) (ends : endsNumber rest = true) :
    NumberLiteral.afterSign negative
        (whole ++ (afterWholeCharacters fraction exponent ++ rest))
      = { negative, whole, fraction
          exponent := exponent.map (·.literal rest)
          ending := .complete rest } := by
  have stops := stops_afterWhole fraction exponent (stops_of_endsNumber ends)
  rw [← afterWhole_append negative whole exponent allDigits ends]
  rcases wholeValid with rfl | ⟨digits, noZero⟩
  · simp only [NumberLiteral.afterSign, List.cons_append, List.nil_append, stops]
    rfl
  · obtain ⟨taken, dropped⟩ := takeWhile_digits digits.2 stops
    have nonempty : whole.isEmpty = false := List.isEmpty_eq_false_iff.2 digits.1
    unfold NumberLiteral.afterSign
    split
    · rename_i starts
      obtain ⟨first, others, rfl⟩ := List.exists_cons_of_ne_nil digits.1
      exact absurd (congrArg some (List.cons.inj starts).1) noZero
    · simp only [taken, dropped, nonempty]
      rfl

end

/-- A lexeme is split off whole before what cannot go on with a number. -/
theorem NumberLexeme.ofCharacters_append (lexeme : NumberLexeme) {rest : List Char}
    (ends : endsNumber rest = true) :
    NumberLiteral.ofCharacters (lexeme.characters ++ rest) = lexeme.literal rest := by
  obtain ⟨negative, whole, fraction, exponent, wholeValid, fractionValid⟩ := lexeme
  have found := afterSign_append negative whole exponent wholeValid fractionValid ends
  rw [characters, List.append_assoc, List.append_assoc]
  cases negative with
  | true => exact found
  | false =>
      rw [literal, ← found]
      have starts : ∃ first others, whole = first :: others ∧ isDigit first = true := by
        rcases wholeValid with rfl | ⟨digits, _⟩
        · exact ⟨_, _, rfl, rfl⟩
        · obtain ⟨first, others, rfl⟩ := List.exists_cons_of_ne_nil digits.1
          exact ⟨first, others, rfl, digits.2 first List.mem_cons_self⟩
      obtain ⟨first, others, rfl, digit⟩ := starts
      unfold NumberLiteral.ofCharacters
      split
      · rename_i minus
        cases (List.cons.inj minus).1
        cases digit
      · rfl

/-! ## What is split off is a number -/

theorem exists_exponent_of_letter {letter : Char} (letterValid : letter = 'e' ∨ letter = 'E')
    {later : List Char} (nonempty : (NumberLiteral.exponentOf later).digits.isEmpty = false) :
    ∃ lexeme : ExponentLexeme,
      letter :: later
          = lexeme.characters ++ (NumberLiteral.exponentOf later).mark.dropWhile isDigit ∧
        NumberLiteral.exponentOf later
          = lexeme.literal ((NumberLiteral.exponentOf later).mark.dropWhile isDigit) := by
  obtain ⟨sign, signValid, split, exponent⟩ := exponentOf_eq later
  rw [exponent] at nonempty
  refine ⟨⟨letter, sign, _, letterValid, signValid, digits_takeWhile nonempty⟩, ?_, ?_⟩
  · rw [ExponentLexeme.characters, List.cons_append, List.append_assoc,
      List.takeWhile_append_dropWhile, ← split]
  · rw [ExponentLexeme.literal, List.takeWhile_append_dropWhile, ← exponent]

/-- After the fraction stands the letter of an exponent, or the number ends there. -/
theorem afterFraction_eq (negative : Bool) (whole fraction text : List Char) :
    (∃ letter later, (letter = 'e' ∨ letter = 'E') ∧ text = letter :: later ∧
      NumberLiteral.afterFraction negative whole fraction text
        = { negative, whole, fraction
            exponent := some (NumberLiteral.exponentOf later)
            ending :=
              if (NumberLiteral.exponentOf later).digits.isEmpty then
                .cutShort (NumberLiteral.exponentOf later).mark
              else .complete ((NumberLiteral.exponentOf later).mark.dropWhile isDigit) }) ∨
      NumberLiteral.afterFraction negative whole fraction text
        = { negative, whole, fraction, exponent := none, ending := .complete text } := by
  unfold NumberLiteral.afterFraction
  split
  · exact .inl ⟨'e', _, .inl rfl, rfl, rfl⟩
  · exact .inl ⟨'E', _, .inr rfl, rfl, rfl⟩
  · exact .inr rfl

section

variable {negative : Bool} {whole text rest : List Char}

theorem exists_exponent_of_complete {fraction : List Char} (stops : text.takeWhile isDigit = [])
    (complete :
      (NumberLiteral.afterFraction negative whole fraction text).ending = .complete rest) :
    ∃ exponent : Option ExponentLexeme,
      text = (exponent.map ExponentLexeme.characters).getD [] ++ rest ∧
        rest.takeWhile isDigit = [] ∧
        NumberLiteral.afterFraction negative whole fraction text
          = { negative, whole, fraction
              exponent := exponent.map (·.literal rest)
              ending := .complete rest } := by
  rcases afterFraction_eq negative whole fraction text with
    ⟨letter, later, letterValid, starts, found⟩ | found
  · rw [found] at complete ⊢
    cases nonempty : (NumberLiteral.exponentOf later).digits.isEmpty with
    | true =>
        simp only [nonempty] at complete
        cases complete
    | false =>
        simp only [nonempty] at complete
        cases complete
        obtain ⟨lexeme, split, exponent⟩ := exists_exponent_of_letter letterValid nonempty
        refine ⟨some lexeme, starts.trans split, takeWhile_dropWhile_digits _, ?_⟩
        rw [Option.map_some, ← exponent]
        rfl
  · rw [found] at complete ⊢
    cases complete
    exact ⟨none, rfl, stops, rfl⟩

theorem exists_fraction_of_complete (stops : text.takeWhile isDigit = [])
    (complete : (NumberLiteral.afterWhole negative whole text).ending = .complete rest) :
    ∃ (fraction : List Char) (exponent : Option ExponentLexeme),
      (∀ digit ∈ fraction, isDigit digit = true) ∧
        text = afterWholeCharacters fraction exponent ++ rest ∧
        rest.takeWhile isDigit = [] ∧
        NumberLiteral.afterWhole negative whole text
          = { negative, whole, fraction
              exponent := exponent.map (·.literal rest)
              ending := .complete rest } := by
  unfold NumberLiteral.afterWhole at complete ⊢
  split at complete
  · rename_i later
    cases nonempty : (later.takeWhile isDigit).isEmpty with
    | true =>
        simp only [nonempty, if_true] at complete
        cases complete
    | false =>
        simp only [nonempty, Bool.false_eq_true, if_false] at complete ⊢
        obtain ⟨exponent, split, stopsThere, found⟩ :=
          exists_exponent_of_complete (takeWhile_dropWhile_digits later) complete
        refine ⟨_, exponent, (digits_takeWhile nonempty).2, ?_, stopsThere, found⟩
        rw [afterWholeCharacters, nonempty, if_neg Bool.false_ne_true, List.append_assoc,
          ← split, List.cons_append, List.takeWhile_append_dropWhile]
  · obtain ⟨exponent, split, stopsThere, found⟩ := exists_exponent_of_complete stops complete
    exact ⟨[], exponent, nofun, split, stopsThere, found⟩

theorem exists_whole_of_complete
    (complete : (NumberLiteral.afterSign negative text).ending = .complete rest) :
    ∃ lexeme : NumberLexeme, lexeme.negative = negative ∧
      text = lexeme.whole ++ (afterWholeCharacters lexeme.fraction lexeme.exponent ++ rest) ∧
      rest.takeWhile isDigit = [] ∧
      NumberLiteral.afterSign negative text = lexeme.literal rest := by
  unfold NumberLiteral.afterSign at complete ⊢
  split at complete
  · rename_i later
    cases stops : (later.takeWhile isDigit).isEmpty with
    | false =>
        simp only [stops] at complete
        cases complete
    | true =>
        simp only [stops, if_true] at complete ⊢
        obtain ⟨fraction, exponent, allDigits, split, stopsThere, found⟩ :=
          exists_fraction_of_complete (List.isEmpty_iff.1 stops) complete
        refine ⟨⟨negative, ['0'], fraction, exponent, .inl rfl, allDigits⟩, rfl, ?_,
          stopsThere, found⟩
        rw [← split]
        rfl
  · rename_i noZero
    cases nonempty : (text.takeWhile isDigit).isEmpty with
    | true =>
        simp only [nonempty, if_true] at complete
        cases complete
    | false =>
        simp only [nonempty, Bool.false_eq_true, if_false] at complete
        obtain ⟨fraction, exponent, allDigits, split, stopsThere, found⟩ :=
          exists_fraction_of_complete (takeWhile_dropWhile_digits text) complete
        have whole := List.takeWhile_append_dropWhile (p := isDigit) (l := text)
        have front : (text.takeWhile isDigit).head? ≠ some '0' := by
          intro zero
          obtain ⟨others, digits⟩ := List.head?_eq_some_iff.1 zero
          rw [digits, List.cons_append] at whole
          exact noZero _ whole.symm
        refine ⟨⟨negative, _, fraction, exponent, .inr ⟨digits_takeWhile nonempty, front⟩,
          allDigits⟩, rfl, ?_, stopsThere, ?_⟩
        · rw [← split, whole]
        · simp only [nonempty, found]
          rfl

end

namespace NumberLexeme

/-- What is split off as a number is the literal of a lexeme, and no digit follows it. -/
theorem exists_literal_of_complete {text rest : List Char}
    (complete : (NumberLiteral.ofCharacters text).ending = .complete rest) :
    ∃ lexeme : NumberLexeme, text = lexeme.characters ++ rest ∧
      rest.takeWhile isDigit = [] ∧
      NumberLiteral.ofCharacters text = lexeme.literal rest := by
  unfold NumberLiteral.ofCharacters at complete ⊢
  split at complete
  · obtain ⟨lexeme, negative, split, stops, found⟩ := exists_whole_of_complete complete
    refine ⟨lexeme, ?_, stops, found⟩
    rw [characters, negative, split, List.append_assoc, List.append_assoc]
    rfl
  · obtain ⟨lexeme, negative, split, stops, found⟩ := exists_whole_of_complete complete
    refine ⟨lexeme, ?_, stops, found⟩
    rw [characters, negative, List.append_assoc, List.append_assoc, ← split]
    rfl

/-! ## What a number stands for -/

theorem exponentValue_append {digits rest : List Char}
    (allDigits : ∀ digit ∈ digits, isDigit digit = true) (stops : rest.takeWhile isDigit = [])
    (value : Nat) :
    (∃ total, NumberLiteral.exponentValue value (digits ++ rest) = .inl total ∧
        NumberLiteral.exponentValue value digits = .inl total) ∨
      ∃ mark otherMark, NumberLiteral.exponentValue value (digits ++ rest) = .inr mark ∧
        NumberLiteral.exponentValue value digits = .inr otherMark := by
  induction digits generalizing value with
  | nil =>
      left
      refine ⟨value, ?_, rfl⟩
      cases rest with
      | nil => rfl
      | cons first others =>
          cases digit : isDigit first with
          | true =>
              rw [List.takeWhile_cons_of_pos digit] at stops
              cases stops
          | false =>
              rw [List.nil_append, NumberLiteral.exponentValue, digit]
              rfl
  | cons first others inductionHypothesis =>
      have digit := allDigits first List.mem_cons_self
      rw [List.cons_append, NumberLiteral.exponentValue, NumberLiteral.exponentValue, digit]
      simp only [if_true]
      split
      · exact inductionHypothesis
          (fun other member => allDigits other (List.mem_cons_of_mem _ member)) _
      · exact .inr ⟨_, _, rfl, rfl⟩

theorem decimal_toOption (negative : Bool) (significand : Nat) (exponent : Int)
    (mark other : Mark) :
    (NumberLiteral.decimal negative significand exponent mark).toOption
      = (NumberLiteral.decimal negative significand exponent other).toOption := by
  unfold NumberLiteral.decimal
  cases Magnitude.ofDecimal? significand exponent with
  | some magnitude => rfl
  | none => rfl

theorem integer_toOption (negative : Bool) (significand : Nat) (mark other : Mark) :
    (NumberLiteral.integer negative significand mark).toOption
      = (NumberLiteral.integer negative significand other).toOption := by
  unfold NumberLiteral.integer
  split
  · split
    · rfl
    · exact decimal_toOption _ _ _ _ _
  · rfl

/-- A reader finds the number that a lexeme stands for, whatever follows it but a digit. -/
theorem value_literal_eq_ok_iff (lexeme : NumberLexeme) {rest : Mark}
    (stops : rest.takeWhile isDigit = []) {number : Number} :
    (lexeme.literal rest).value = .ok number ↔ lexeme.number? = some number := by
  have same : (lexeme.literal rest).value.toOption = (lexeme.literal []).value.toOption := by
    obtain ⟨negative, whole, fraction, exponent, _, _⟩ := lexeme
    unfold literal NumberLiteral.value NumberLiteral.valueAt
    cases exponent with
    | none =>
        dsimp only [Option.map_none]
        split
        · exact integer_toOption _ _ _ _
        · exact decimal_toOption _ _ _ _ _
    | some exponent =>
        dsimp only [Option.map_some, ExponentLexeme.literal]
        rw [List.append_nil]
        rcases exponentValue_append exponent.digitsValid.2 stops 0 with
          ⟨total, here, there⟩ | ⟨mark, otherMark, here, there⟩
        · rw [here, there]
          exact decimal_toOption _ _ _ _ _
        · rw [here, there]
          dsimp only
          split
          · rfl
          · rfl
  rw [number?, ← same, toOption_eq_some_iff]

theorem absorb_lt (digits : List Char) (significand : Nat)
    (fits : significand < NumberLiteral.wordLimit) :
    (NumberLiteral.absorb significand digits).1 < NumberLiteral.wordLimit := by
  induction digits generalizing significand with
  | nil => exact fits
  | cons digit rest inductionHypothesis =>
      rw [NumberLiteral.absorb]
      split
      · exact inductionHypothesis _ ‹_›
      · exact fits

theorem decimal_ne_integer (negative : Bool) (significand : Nat) (exponent : Int) (mark : Mark)
    (value : Int) :
    NumberLiteral.decimal negative significand exponent mark ≠ .ok (.integer value) := by
  unfold NumberLiteral.decimal
  split
  · exact nofun
  · exact nofun

/-- Integers fit into a word. -/
theorem lt_of_number?_eq_integer {lexeme : NumberLexeme} {value : Int}
    (stands : lexeme.number? = some (.integer value)) : value < NumberLiteral.wordLimit := by
  rw [number?, toOption_eq_some_iff] at stands
  have fits := absorb_lt lexeme.whole 0 (by decide)
  unfold literal NumberLiteral.value NumberLiteral.valueAt at stands
  cases exponent : lexeme.exponent with
  | none =>
      rw [exponent] at stands
      dsimp only [Option.map_none] at stands
      split at stands
      · unfold NumberLiteral.integer at stands
        split at stands
        · split at stands
          · cases stands
            omega
          · exact absurd stands (decimal_ne_integer _ _ _ _ _)
        · cases stands
          exact Int.ofNat_lt.2 fits
      · exact absurd stands (decimal_ne_integer _ _ _ _ _)
  | some present =>
      rw [exponent] at stands
      dsimp only [Option.map_some] at stands
      split at stands
      · exact absurd stands (decimal_ne_integer _ _ _ _ _)
      · split at stands
        · cases stands
        · cases stands

end NumberLexeme

end Json
end SchemaBinding
