import SchemaBinding.Json.Fault

/-!
Contract: number literals of JSON.

Owns:
- `NumberLiteral`, a literal split into its digits, finished or not;
- `Number`, an integer of 64 bits or a floating-point number; and
- `NumberLiteral.value`, the number that a literal stands for.

Does not own: what a number is wanted for.

A literal without fraction and exponent is an integer if it fits into 64 bits,
unsigned, or signed after a minus. All other literals are floating-point numbers,
`-0` included, since an integer has no sign at zero.
-/

set_option autoImplicit false

namespace SchemaBinding
namespace Json

/-- The number that a literal stands for. -/
inductive Number where
  | integer (value : Int)
  | decimal (value : Binary64)
  deriving DecidableEq, Repr

/-- The exponent of a number literal. -/
structure Exponent where
  negative : Bool
  digits : List Char
  /-- The place of the first digit. -/
  mark : Mark
  deriving DecidableEq, Repr

/-- How a number literal ends. -/
inductive NumberEnding where
  | complete (after : Mark)
  /-- Before a character that the literal cannot go on with, or at the end of the
  text, where the literal cannot end. -/
  | cutShort (mark : Mark)
  deriving DecidableEq, Repr

/-- A number literal. The fraction is empty when there is no point. -/
structure NumberLiteral where
  negative : Bool
  whole : List Char
  fraction : List Char
  exponent : Option Exponent
  ending : NumberEnding
  deriving DecidableEq, Repr

def isDigit (character : Char) : Bool :=
  '0' ≤ character && character ≤ '9'

def digitValue (character : Char) : Nat :=
  character.toNat - '0'.toNat

namespace NumberLiteral

/-! ## Splitting -/

/-- The sign and the digits after the letter of an exponent. -/
def exponentOf (text : List Char) : Exponent :=
  let signed : Bool × List Char :=
    match text with
    | '+' :: rest => (false, rest)
    | '-' :: rest => (true, rest)
    | _ => (false, text)
  { negative := signed.1
    digits := signed.2.takeWhile isDigit
    mark := signed.2 }

/-- Goes on after the integer part and the fraction. -/
def afterFraction (negative : Bool) (whole fraction text : List Char) : NumberLiteral :=
  match text with
  | 'e' :: rest | 'E' :: rest =>
      let exponent := exponentOf rest
      { negative, whole, fraction
        exponent := some exponent
        ending :=
          if exponent.digits.isEmpty then .cutShort exponent.mark
          else .complete (exponent.mark.dropWhile isDigit) }
  | _ => { negative, whole, fraction, exponent := none, ending := .complete text }

/-- Goes on after the integer part. -/
def afterWhole (negative : Bool) (whole text : List Char) : NumberLiteral :=
  match text with
  | '.' :: rest =>
      let fraction := rest.takeWhile isDigit
      if fraction.isEmpty then
        { negative, whole, fraction, exponent := none, ending := .cutShort rest }
      else afterFraction negative whole fraction (rest.dropWhile isDigit)
  | _ => afterFraction negative whole [] text

/-- Splits what follows the sign. The integer part is a single zero, or it starts
with another digit. -/
def afterSign (negative : Bool) (text : List Char) : NumberLiteral :=
  match text with
  | '0' :: rest =>
      if (rest.takeWhile isDigit).isEmpty then afterWhole negative ['0'] rest
      else
        { negative
          whole := ['0']
          fraction := []
          exponent := none
          ending := .cutShort rest }
  | _ =>
      let whole := text.takeWhile isDigit
      if whole.isEmpty then
        { negative, whole, fraction := [], exponent := none, ending := .cutShort text }
      else afterWhole negative whole (text.dropWhile isDigit)

/-- Splits a text that starts with a minus or a digit. -/
def ofCharacters : List Char → NumberLiteral
  | '-' :: rest => afterSign true rest
  | text => afterSign false text

/-! ## Value -/

/-- Integers that fit into a word of 64 bits lie below this one. -/
def wordLimit : Nat := Nat.pow 2 64

/-- Appends digits to a significand as long as it fits into a word, and gives back
the digits left over. -/
def absorb : Nat → List Char → Nat × List Char
  | significand, [] => (significand, [])
  | significand, digit :: rest =>
      let longer := significand * 10 + digitValue digit
      if longer < wordLimit then absorb longer rest else (significand, digit :: rest)

/-- Exponents are counted in a signed word of 32 bits. -/
def exponentLimit : Nat := Nat.pow 2 31

/-- The value of an exponent, or what follows the digit that makes it too great. -/
def exponentValue : Nat → Mark → Nat ⊕ Mark
  | value, [] => .inl value
  | value, digit :: rest =>
      if isDigit digit then
        let longer := value * 10 + digitValue digit
        if longer < exponentLimit then exponentValue longer rest else .inr rest
      else .inl value

/-- A floating-point number from its parts, or a fault at the given place. -/
def decimal (negative : Bool) (significand : Nat) (exponent : Int) (mark : Mark) :
    Except Fault Number :=
  match Magnitude.ofDecimal? significand exponent with
  | some magnitude => .ok (.decimal { negative, magnitude })
  | none => .error (.here .numberOutOfRange mark)

/-- An integer if it fits, and otherwise the floating-point number next to it. -/
def integer (negative : Bool) (significand : Nat) (mark : Mark) : Except Fault Number :=
  if negative then
    if 0 < significand ∧ significand ≤ wordLimit / 2 then
      .ok (.integer (-significand))
    else decimal true significand 0 mark
  else .ok (.integer significand)

/-- The value of a literal that ends before `after`. Digits that the significand
has no room for count as powers of ten before the point, and as nothing after
it. -/
def valueAt (literal : NumberLiteral) (after : Mark) : Except Fault Number :=
  let whole := absorb 0 literal.whole
  let both := absorb whole.1 literal.fraction
  let shift : Int :=
    (whole.2.length : Int) - (literal.fraction.length - both.2.length)
  match literal.exponent with
  | none =>
      if literal.fraction.isEmpty && whole.2.isEmpty then
        integer literal.negative whole.1 after
      else decimal literal.negative both.1 shift after
  | some exponent =>
      match exponentValue 0 exponent.mark with
      | .inl value =>
          decimal literal.negative both.1
            (if exponent.negative then shift - value else shift + value) after
      | .inr mark =>
          if both.1 = 0 ∨ exponent.negative then
            .ok (.decimal { negative := literal.negative, magnitude := .zero })
          else .error (.here .numberOutOfRange mark)

/-- The number that a literal stands for. -/
def value (literal : NumberLiteral) : Except Fault Number :=
  match literal.ending with
  | .complete after => literal.valueAt after
  | .cutShort [] => .error (.atEnd .endInValue)
  | .cutShort mark => .error (.next .invalidNumber mark)

/-- Whether a literal is complete, which is all that is asked of one that is
passed over. -/
def wellFormed (literal : NumberLiteral) : Except Fault Unit :=
  match literal.ending with
  | .complete _ => .ok ()
  | .cutShort mark => .error (.next .invalidNumber mark)

/-- What follows a literal, if it is complete. -/
def after? (literal : NumberLiteral) : Option Mark :=
  match literal.ending with
  | .complete after => some after
  | .cutShort _ => none

end NumberLiteral

end Json
end SchemaBinding
