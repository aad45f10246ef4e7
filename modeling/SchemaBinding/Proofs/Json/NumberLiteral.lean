import SchemaBinding.Json.Value

/-!
Contract: an integer that has been written in decimal is read back.

Owns:
- `FitsWord`, the integers that a literal can stand for exactly;
- `endsNumber`, what may follow a number literal without going on with it; and
- `NumberLiteral.ofCharacters_renderNumber`, the round trip of integer literals.

Does not own: floating-point literals, and literals with an exponent or a fraction.
-/

set_option autoImplicit false

namespace SchemaBinding
namespace Json

/-- The integers of 64 bits, signed or unsigned. -/
def FitsWord (value : Int) : Prop :=
  -(NumberLiteral.wordLimit / 2 : Nat) ≤ value ∧ value < NumberLiteral.wordLimit

instance (value : Int) : Decidable (FitsWord value) :=
  inferInstanceAs (Decidable (_ ∧ _))

/-- No integer literal goes on with what a text starts with. -/
def endsNumber : List Char → Bool
  | [] => true
  | character :: _ =>
      !isDigit character && character != '.' && character != 'e' && character != 'E'

/-! ## The digits of a number -/

theorem isDigit_of_mem_toDigits (value : Nat) {digit : Char}
    (member : digit ∈ Nat.toDigits 10 value) : isDigit digit = true := by
  have bounds := Nat.isDigit_of_mem_toDigits (by decide) (by decide) member
  rw [Char.isDigit, Bool.and_eq_true, decide_eq_true_eq, decide_eq_true_eq] at bounds
  rw [isDigit, Bool.and_eq_true, decide_eq_true_eq, decide_eq_true_eq]
  exact bounds

/-- Only zero is written with a zero in front. -/
theorem head_toDigits_ne_zero (value : Nat) (positive : 0 < value) (rest : List Char) :
    Nat.toDigits 10 value ≠ '0' :: rest := by
  induction value using Nat.strongRecOn generalizing rest with
  | ind value inductionHypothesis =>
      intro starts
      by_cases small : value < 10
      · rw [Nat.toDigits_of_lt_base small] at starts
        have zero : value = 0 := Nat.digitChar_eq_zero.1 (List.cons.inj starts).1
        omega
      · rw [Nat.toDigits_of_base_le (by decide) (by omega)] at starts
        cases front : Nat.toDigits 10 (value / 10) with
        | nil => exact Nat.toDigits_ne_nil front
        | cons first others =>
            rw [front, List.cons_append] at starts
            have zero : first = '0' := (List.cons.inj starts).1
            exact inductionHypothesis (value / 10) (by omega) (by omega) others
              (zero ▸ front)

namespace NumberLiteral

/-- Something follows a literal exactly when it is complete. -/
theorem after?_eq_some_iff {literal : NumberLiteral} {rest : Mark} :
    literal.after? = some rest ↔ literal.ending = .complete rest := by
  unfold after?
  cases literal.ending with
  | complete after => rw [Option.some.injEq, NumberEnding.complete.injEq]
  | cutShort _ => exact ⟨nofun, nofun⟩

/-! ## Splitting a written integer -/

theorem takeWhile_of_endsNumber {rest : List Char} (ends : endsNumber rest = true) :
    rest.takeWhile isDigit = [] ∧ rest.dropWhile isDigit = rest := by
  cases rest with
  | nil => exact ⟨rfl, rfl⟩
  | cons character _ =>
      have noDigit : isDigit character = false := by
        simp only [endsNumber, Bool.and_eq_true, Bool.not_eq_true'] at ends
        exact ends.1.1.1
      rw [List.takeWhile_cons, List.dropWhile_cons, noDigit]
      exact ⟨rfl, rfl⟩

theorem takeWhile_digits_append {digits rest : List Char}
    (allDigits : ∀ digit ∈ digits, isDigit digit = true) (ends : endsNumber rest = true) :
    (digits ++ rest).takeWhile isDigit = digits ∧
      (digits ++ rest).dropWhile isDigit = rest := by
  obtain ⟨taken, dropped⟩ := takeWhile_of_endsNumber ends
  rw [List.takeWhile_append_of_pos allDigits, List.dropWhile_append_of_pos allDigits, taken,
    dropped, List.append_nil]
  exact ⟨rfl, rfl⟩

theorem afterWhole_of_endsNumber (negative : Bool) (whole : List Char) {rest : List Char}
    (ends : endsNumber rest = true) :
    afterWhole negative whole rest
      = { negative
          whole
          fraction := []
          exponent := none
          ending := .complete rest } := by
  unfold afterWhole
  split
  · cases ends
  · unfold afterFraction
    split
    · cases ends
    · cases ends
    · rfl

theorem afterSign_toDigits (negative : Bool) (value : Nat) {rest : List Char}
    (ends : endsNumber rest = true) :
    afterSign negative (Nat.toDigits 10 value ++ rest)
      = { negative
          whole := Nat.toDigits 10 value
          fraction := []
          exponent := none
          ending := .complete rest } := by
  obtain ⟨taken, dropped⟩ :=
    takeWhile_digits_append (fun _ member => isDigit_of_mem_toDigits value member) ends
  by_cases zero : value = 0
  · subst zero
    rw [Nat.toDigits_zero, List.singleton_append, afterSign,
      (takeWhile_of_endsNumber ends).1]
    exact afterWhole_of_endsNumber negative ['0'] ends
  · have positive : 0 < value := Nat.pos_of_ne_zero zero
    rw [← afterWhole_of_endsNumber negative _ ends]
    unfold afterSign
    split
    · rename_i starts
      cases digits : Nat.toDigits 10 value with
      | nil => exact absurd digits Nat.toDigits_ne_nil
      | cons first others =>
          rw [digits, List.cons_append] at starts
          have front : first = '0' := (List.cons.inj starts).1
          exact absurd (front ▸ digits) (head_toDigits_ne_zero value positive others)
    · simp only [taken, dropped, List.isEmpty_iff, Nat.toDigits_ne_nil, if_false]

/-! ## The value of a written integer -/

theorem le_ofDigitChars (digits : List Char) (significand : Nat) :
    significand ≤ Nat.ofDigitChars 10 digits significand := by
  induction digits generalizing significand with
  | nil => exact Nat.le_refl _
  | cons digit rest inductionHypothesis =>
      rw [Nat.ofDigitChars_cons]
      have longer := inductionHypothesis (10 * significand + (digit.toNat - '0'.toNat))
      omega

/-- Digits are absorbed as long as their number fits into a word. -/
theorem absorb_of_lt (digits : List Char) (significand : Nat)
    (fits : Nat.ofDigitChars 10 digits significand < wordLimit) :
    absorb significand digits = (Nat.ofDigitChars 10 digits significand, []) := by
  induction digits generalizing significand with
  | nil => rfl
  | cons digit rest inductionHypothesis =>
      rw [Nat.ofDigitChars_cons, Nat.mul_comm] at fits ⊢
      have longer := le_ofDigitChars rest (significand * 10 + (digit.toNat - '0'.toNat))
      have step : significand * 10 + digitValue digit < wordLimit :=
        Nat.lt_of_le_of_lt longer fits
      rw [absorb, if_pos step]
      exact inductionHypothesis _ fits

theorem valueAt_toDigits (negative : Bool) (value : Nat) (ending : NumberEnding)
    (after : Mark) (fits : value < wordLimit) :
    valueAt
        { negative
          whole := Nat.toDigits 10 value
          fraction := []
          exponent := none
          ending }
        after
      = integer negative value after := by
  have absorbed : absorb 0 (Nat.toDigits 10 value) = (value, []) := by
    have digits := absorb_of_lt (Nat.toDigits 10 value) 0
    rw [Nat.ofDigitChars_ten_toDigits] at digits
    exact digits fits
  simp only [valueAt, absorbed, absorb, List.isEmpty_nil, Bool.and_self, if_true]

/-! ## Both signs -/

theorem renderNumber_ofNat (value : Nat) :
    Value.renderNumber (.integer (.ofNat value)) = Nat.toDigits 10 value :=
  Nat.toList_repr

theorem renderNumber_negSucc (value : Nat) :
    Value.renderNumber (.integer (.negSucc value))
      = '-' :: Nat.toDigits 10 (value + 1) := by
  have digits : (toString (value + 1)).toList = Nat.toDigits 10 (value + 1) :=
    Nat.toList_repr
  rw [← digits]
  exact String.toList_append

/-- What a number literal may start with. -/
def startsNumber (character : Char) : Bool :=
  character == '-' || isDigit character

theorem toDigits_eq_cons (value : Nat) :
    ∃ first more, Nat.toDigits 10 value = first :: more ∧ isDigit first = true := by
  cases digits : Nat.toDigits 10 value with
  | nil => exact absurd digits Nat.toDigits_ne_nil
  | cons first more =>
      exact ⟨first, more, rfl, isDigit_of_mem_toDigits value (digits ▸ List.mem_cons_self)⟩

theorem renderNumber_eq_cons (value : Int) :
    ∃ first more,
      Value.renderNumber (.integer value) = first :: more ∧ startsNumber first = true := by
  cases value with
  | ofNat magnitude =>
      obtain ⟨first, more, digits, digit⟩ := toDigits_eq_cons magnitude
      refine ⟨first, more, (renderNumber_ofNat magnitude).trans digits, ?_⟩
      rw [startsNumber, digit, Bool.or_true]
  | negSucc magnitude => exact ⟨_, _, renderNumber_negSucc magnitude, rfl⟩

theorem ofCharacters_toDigits (value : Nat) (rest : List Char) :
    ofCharacters (Nat.toDigits 10 value ++ rest)
      = afterSign false (Nat.toDigits 10 value ++ rest) := by
  obtain ⟨first, more, digits, digit⟩ := toDigits_eq_cons value
  rw [digits, List.cons_append, ofCharacters]
  intro others same
  rw [(List.cons.inj same).1] at digit
  cases digit

/-- A written integer ends where its digits end and stands for the integer that was
written. -/
theorem ofCharacters_renderNumber {value : Int} (fits : FitsWord value) {rest : List Char}
    (ends : endsNumber rest = true) :
    (ofCharacters (Value.renderNumber (.integer value) ++ rest)).ending = .complete rest ∧
      (ofCharacters (Value.renderNumber (.integer value) ++ rest)).value
        = .ok (.integer value) := by
  obtain ⟨lower, upper⟩ := fits
  have limit : wordLimit = 18446744073709551616 := rfl
  rw [limit] at lower upper
  cases value with
  | ofNat magnitude =>
      rw [Int.ofNat_eq_natCast] at upper
      have fitsWord : magnitude < wordLimit := by omega
      rw [renderNumber_ofNat, ofCharacters_toDigits,
        afterSign_toDigits false magnitude ends]
      refine ⟨rfl, ?_⟩
      exact valueAt_toDigits false magnitude _ rest fitsWord
  | negSucc magnitude =>
      have fitsHalf : magnitude + 1 ≤ wordLimit / 2 := by omega
      have fitsWord : magnitude + 1 < wordLimit := by omega
      rw [renderNumber_negSucc, List.cons_append, ofCharacters,
        afterSign_toDigits true (magnitude + 1) ends]
      refine ⟨rfl, ?_⟩
      refine (valueAt_toDigits true (magnitude + 1) _ rest fitsWord).trans ?_
      rw [integer, if_pos rfl, if_pos ⟨Nat.succ_pos magnitude, fitsHalf⟩]
      rfl

end NumberLiteral

end Json
end SchemaBinding
