import SchemaBinding.Number.Binary64

/-!
Contract: the decimal text of a floating-point number.

Owns:
- `Decimal`, a significand times a power of ten;
- `Decimal.shortest`, the decimal of fewest digits that reads back as a given
  number; and
- `Binary64.text`, which writes it.

Does not own: the reading of decimals.

Of the decimals with the fewest digits the nearest is taken, and of two equally
near the one of even significand. Numbers from `1e-5` up to below `1e16` are
written without an exponent.
-/

set_option autoImplicit false

namespace SchemaBinding

/-- The number `significand * 10 ^ exponent`. -/
structure Decimal where
  significand : Nat
  exponent : Int
  deriving DecidableEq, Repr, Inhabited

namespace Decimal

/-- A positive number and the reals that round to it, in quarter steps: the number
is `4 * mantissa` of them, and the ends of the interval belong to it when the
mantissa is even. -/
structure Interval where
  low : Nat
  value : Nat
  high : Nat
  closed : Bool
  /-- The size of a quarter step, as an exponent of two. -/
  exponent : Int

namespace Interval

/-- The step below a power of two is half as wide as the one above it. -/
def ofMagnitude (number : Magnitude) : Interval :=
  let narrow :=
    number.mantissa = Nat.pow 2 (Magnitude.precision - 1)
      ∧ Magnitude.leastExponent < number.exponent
  { low := 4 * number.mantissa - if narrow then 1 else 2
    value := 4 * number.mantissa
    high := 4 * number.mantissa + 2
    closed := number.mantissa % 2 = 0
    exponent := number.exponent - 2 }

/-- The factors by which quarter steps and units of `10 ^ power` are multiplied to
become comparable integers. -/
def factors (interval : Interval) (power : Int) : Nat × Nat :=
  (Nat.pow 2 interval.exponent.toNat * Nat.pow 10 (-power).toNat,
    Nat.pow 2 (-interval.exponent).toNat * Nat.pow 10 power.toNat)

/-- Whether `significand * 10 ^ power` lies in the interval. -/
def holds (interval : Interval) (power : Int) (significand : Nat) : Bool :=
  let (step, unit) := interval.factors power
  if interval.closed then
    interval.low * step ≤ significand * unit && significand * unit ≤ interval.high * step
  else
    interval.low * step < significand * unit && significand * unit < interval.high * step

/-- The multiple of `10 ^ power` at or just below the value. -/
def below (interval : Interval) (power : Int) : Nat :=
  let (step, unit) := interval.factors power
  interval.value * step / unit

/-- Whether the multiple below the value is the better one of its two neighbours:
the nearer one, and of two equally near the even one. -/
def prefersBelow (interval : Interval) (power : Int) : Bool :=
  let (step, unit) := interval.factors power
  let lower := interval.below power
  let toLower := interval.value * step - lower * unit
  let toUpper := (lower + 1) * unit - interval.value * step
  toLower < toUpper || (toLower == toUpper && lower % 2 == 0)

/-- The best multiple of `10 ^ power` in the interval, if there is one. -/
def bestOf? (interval : Interval) (power : Int) : Option Nat :=
  let lower := interval.below power
  match interval.holds power lower, interval.holds power (lower + 1) with
  | true, true => some (if interval.prefersBelow power then lower else lower + 1)
  | true, false => some lower
  | false, true => some (lower + 1)
  | false, false => none

/-- The exponent of the first digit of the value: the greatest `power` for which
`10 ^ power` is not above it, found next to an estimate by the bits of the value. -/
def leading (interval : Interval) : Int :=
  let bits : Int := (Nat.log2 interval.value : Int) + interval.exponent
  let estimate := (bits * 30103).fdiv 100000
  if 1 ≤ interval.below (estimate + 1) then estimate + 1
  else if 1 ≤ interval.below estimate then estimate
  else estimate - 1

end Interval

/-- A significand without its final zeros, at most `fuel` of them. -/
def strip : Nat → Decimal → Decimal
  | 0, decimal => decimal
  | fuel + 1, decimal =>
      if decimal.significand ≠ 0 ∧ decimal.significand % 10 = 0 then
        strip fuel ⟨decimal.significand / 10, decimal.exponent + 1⟩
      else decimal

/-- As many digits as are ever needed to tell two numbers apart. -/
def sufficientDigits : Nat := 17

/-- The decimal of fewest digits that reads back as `number`. Some decimal of
`sufficientDigits` digits always does, so the search never comes out empty. -/
def shortest (number : Magnitude) : Decimal :=
  if number.mantissa = 0 then ⟨0, 0⟩
  else
    let interval := Interval.ofMagnitude number
    let leading := interval.leading
    let found := (List.range sufficientDigits).findSome? fun (more : Nat) =>
      let power := leading - more
      (interval.bestOf? power).map fun significand =>
        strip sufficientDigits ⟨significand, power⟩
    found.getD ⟨interval.below (leading - 16), leading - 16⟩

/-- Numbers are written without an exponent when their first digit stands at one
of these powers of ten. -/
def leastPlain : Int := -5

/-- See `leastPlain`. -/
def greatestPlain : Int := 15

def zeros (count : Nat) : List Char :=
  List.replicate count '0'

/-- A decimal as it is written: a point and at least one digit after it in plain
notation, and otherwise one digit before the point, a point only if a digit
follows, and an exponent with its sign. -/
def text (decimal : Decimal) : List Char :=
  let digits := Nat.toDigits 10 decimal.significand
  let leading : Int := decimal.exponent + digits.length - 1
  if leastPlain ≤ leading ∧ leading ≤ greatestPlain then
    if 0 ≤ decimal.exponent then digits ++ zeros decimal.exponent.toNat ++ ['.', '0']
    else if 0 ≤ leading then
      digits.take (leading.toNat + 1) ++ '.' :: digits.drop (leading.toNat + 1)
    else
      '0' :: '.' :: zeros (-leading - 1).toNat ++ digits
  else
    let fraction := digits.drop 1
    digits.take 1
      ++ (if fraction.isEmpty then [] else '.' :: fraction)
      ++ ['e', if 0 ≤ leading then '+' else '-']
      ++ Nat.toDigits 10 leading.natAbs

end Decimal

/-- The shortest text that reads back as the number. -/
def Binary64.text (number : Binary64) : String :=
  String.ofList
    ((if number.negative then ['-'] else []) ++ (Decimal.shortest number.magnitude).text)

end SchemaBinding
