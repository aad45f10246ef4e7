/-!
Contract: finite binary floating-point numbers of 64 bits, computed exactly.

Owns:
- `Magnitude`, a finite number without its sign, and `Binary64`, one with it;
- `Magnitude.ofRatio?`, rounding to nearest with ties to even; and
- `Magnitude.ofDecimal?`, the value given to a significand and a power of ten.

Does not own: infinities and numbers that are not numbers, which never arise, and
the text of a number.

Everything is integer arithmetic on a mantissa and an exponent of two.
-/

set_option autoImplicit false

namespace SchemaBinding

/-- The number `mantissa * 2 ^ exponent`. The mantissa has 53 bits, or fewer when
the exponent is the least one. -/
structure Magnitude where
  mantissa : Nat
  exponent : Int
  deriving DecidableEq, Repr, Inhabited

namespace Magnitude

/-- The bits of a full mantissa. -/
def precision : Nat := 53

def leastExponent : Int := -1074

def greatestExponent : Int := 971

def zero : Magnitude := ⟨0, leastExponent⟩

/-- The integer nearest to a quotient, the even one of two. -/
def roundHalfEven (numerator denominator : Nat) : Nat :=
  let quotient := numerator / denominator
  let twice := 2 * (numerator % denominator)
  if twice < denominator then quotient
  else if denominator < twice then quotient + 1
  else quotient + quotient % 2

/-- The ratio `numerator / denominator / 2 ^ exponent`, as a ratio. -/
def scaled (numerator denominator : Nat) (exponent : Int) : Nat × Nat :=
  if 0 ≤ exponent then (numerator, denominator * Nat.pow 2 exponent.toNat)
  else (numerator * Nat.pow 2 (-exponent).toNat, denominator)

/-- The exponent at which the integer part of a positive ratio has as many bits
as a mantissa, or the least exponent. -/
def exponentFor (numerator denominator : Nat) : Int :=
  let trial : Int := (Nat.log2 numerator : Int) - Nat.log2 denominator - precision
  let ratio := scaled numerator denominator trial
  max (if ratio.1 < Nat.pow 2 precision * ratio.2 then trial else trial + 1) leastExponent

/-- The number nearest to a ratio, the one of even mantissa of two. There is none
when the ratio lies beyond the greatest number by half a step or more. -/
def ofRatio? (numerator denominator : Nat) : Option Magnitude :=
  if numerator = 0 then some zero
  else
    let exponent := exponentFor numerator denominator
    let ratio := scaled numerator denominator exponent
    let mantissa := roundHalfEven ratio.1 ratio.2
    let rounded : Magnitude :=
      if mantissa = Nat.pow 2 precision then ⟨Nat.pow 2 (precision - 1), exponent + 1⟩
      else ⟨mantissa, exponent⟩
    if rounded.exponent ≤ greatestExponent then some rounded else none

/-- A number as a ratio of integers. -/
def ratio (number : Magnitude) : Nat × Nat :=
  scaled number.mantissa 1 (-number.exponent)

def times? (first second : Magnitude) : Option Magnitude :=
  ofRatio? (first.ratio.1 * second.ratio.1) (first.ratio.2 * second.ratio.2)

def over? (first second : Magnitude) : Option Magnitude :=
  ofRatio? (first.ratio.1 * second.ratio.2) (first.ratio.2 * second.ratio.1)

/-- The number nearest to a power of ten. -/
def powerOfTen? (exponent : Nat) : Option Magnitude :=
  ofRatio? (Nat.pow 10 exponent) 1

/-- The greatest power of ten below the greatest number. -/
def greatestPower : Nat := 308

/-- The number read for `significand * 10 ^ exponent`: the significand and the
power are rounded first, and then their product or quotient. A power beyond the
greatest is taken in two steps where it divides, and yields zero where two steps
do not suffice. There is no number when the value is too great. -/
def ofDecimal? (significand : Nat) (exponent : Int) : Option Magnitude :=
  if significand = 0 then some zero
  else if greatestPower < exponent then none
  else do
    let value ← ofRatio? significand 1
    if 0 ≤ exponent then
      value.times? (← powerOfTen? exponent.toNat)
    else if -exponent ≤ greatestPower then
      value.over? (← powerOfTen? (-exponent).toNat)
    else if -exponent ≤ 2 * greatestPower then
      let reduced ← value.over? (← powerOfTen? greatestPower)
      reduced.over? (← powerOfTen? ((-exponent).toNat - greatestPower))
    else some zero

end Magnitude

/-- A finite number with its sign. Zero has a sign too. -/
structure Binary64 where
  negative : Bool
  magnitude : Magnitude
  deriving DecidableEq, Repr, Inhabited

end SchemaBinding
