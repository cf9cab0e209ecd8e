/-
This file reads and writes numbers in decimal digits: whole numbers, and the
non-negative finite numbers of the binary64 format. All arithmetic is on natural
numbers, so nothing depends on the floating-point unit of a machine.

An exact quotient is rounded to the nearest binary64 number. Back from there, the
fewest decimal digits that identify a number are the digits of a decimal that rounds
to it, shorter than any other such decimal, and among the shortest the nearest. The
search goes from coarse decimal grids to fine ones. On every grid only the two
neighbours of the number can be nearest, so only these are tried.
-/

import Scaffold.Text.Lines

namespace Scaffold.Text

/-- The natural number that decimal digits spell. -/
def naturalOf (digits : Text) : Nat :=
  digits.foldl (fun value digit => value * 10 + (digit.toNat - '0'.toNat)) 0

/-- The decimal digits of a natural number. -/
def digitsOf (number : Nat) : Text :=
  Nat.toDigits 10 number

/-- The text of an integer: its digits, behind a minus sign if it is negative. -/
def integerText : Int → Text
  | .ofNat number => digitsOf number
  | .negSucc number => '-' :: digitsOf (number + 1)

end Scaffold.Text

namespace Scaffold.Decimal

open Text (digitsOf integerText)

/-! ### Rounding -/

/-- A power of two. -/
def twoTo (exponent : Nat) : Nat :=
  Nat.pow 2 exponent

/-- A power of ten. -/
def tenTo (exponent : Nat) : Nat :=
  Nat.pow 10 exponent

/-- A non-negative finite binary64 number, `significand * 2 ^ exponent`. The significand is below
`2 ^ 53`, and from `2 ^ 52` up unless the exponent is the least one, -1074. -/
structure Binary64 where
  significand : Nat
  exponent : Int
deriving DecidableEq

namespace Binary64

def zero : Binary64 := ⟨0, -1074⟩

/-- A quotient rounded to a natural number; a tie goes to the even neighbour. -/
def roundQuotient (numerator denominator : Nat) : Nat :=
  let floor := numerator / denominator
  let twice := 2 * (numerator % denominator)
  if denominator < twice ∨ (twice = denominator ∧ floor % 2 = 1) then floor + 1 else floor

/-- The exponent of the highest power of two that is at most `numerator / denominator`, for positive
arguments. The difference of the two logarithms is right or one too high. -/
def quotientLog (numerator denominator : Nat) : Int :=
  let guess : Int := (numerator.log2 : Int) - (denominator.log2 : Int)
  if denominator * twoTo guess.toNat ≤ numerator * twoTo (-guess).toNat then guess else guess - 1

/-- The number nearest to a quotient; a tie goes to the even significand. There is none if the
quotient rounds to `2 ^ 1024` or more. -/
def ofQuotient? (numerator denominator : Nat) : Option Binary64 :=
  if numerator = 0 then some zero
  else
    let exponent := max (quotientLog numerator denominator - 52) (-1074)
    let rounded :=
      roundQuotient (numerator * twoTo (-exponent).toNat) (denominator * twoTo exponent.toNat)
    let number : Binary64 :=
      if rounded = twoTo 53 then ⟨twoTo 52, exponent + 1⟩ else ⟨rounded, exponent⟩
    if number.exponent ≤ 971 then some number else none

/-- The number nearest to `digits * 10 ^ exponent`. Numbers far out of range are told apart by their
length alone, so that no huge power is ever computed. -/
def ofDecimal? (digits : Nat) (exponent : Int) : Option Binary64 :=
  let length : Int := ((Nat.toDigits 10 digits).length : Int) + exponent
  if digits = 0 ∨ length < -400 then some zero
  else if 400 < length then none
  else ofQuotient? (digits * tenTo exponent.toNat) (tenTo (-exponent).toNat)

/-- The product of two numbers, rounded. -/
def mul? (first second : Binary64) : Option Binary64 :=
  let exponent := first.exponent + second.exponent
  ofQuotient? (first.significand * second.significand * twoTo exponent.toNat)
    (twoTo (-exponent).toNat)

/-- The quotient of a number by a positive one, rounded. -/
def div? (first second : Binary64) : Option Binary64 :=
  let exponent := first.exponent - second.exponent
  ofQuotient? (first.significand * twoTo exponent.toNat)
    (second.significand * twoTo (-exponent).toNat)

end Binary64

/-! ### The fewest digits -/

/-- A decimal: the number `digits * 10 ^ exponent`. -/
structure Scaled where
  digits : Nat
  exponent : Int
deriving DecidableEq

/-- Which of two equally near decimals is taken. -/
inductive Tie where
  | toEven
  | up
deriving DecidableEq

/-- Compares `digits * 10 ^ tens` with `count * 2 ^ twos`, exactly. -/
def compareScaled (digits : Nat) (tens : Int) (count : Nat) (twos : Int) : Ordering :=
  compare (digits * tenTo tens.toNat * twoTo (-twos).toNat)
    (count * twoTo twos.toNat * tenTo (-tens).toNat)

/-- Whether a decimal lies among the reals that round to a number: no further off than halfway to
the number's neighbours, where the halfway points themselves belong to even significands. The
neighbour below a power of two is only half as far away as the one above. -/
def Binary64.identifiedBy (number : Binary64) (decimal : Scaled) : Bool :=
  let narrow := number.significand = twoTo 52 ∧ -1074 < number.exponent
  let low := if narrow then 4 * number.significand - 1 else 4 * number.significand - 2
  let high := 4 * number.significand + 2
  let closed := number.significand % 2 = 0
  let fromLow := compareScaled decimal.digits decimal.exponent low (number.exponent - 2)
  let fromHigh := compareScaled decimal.digits decimal.exponent high (number.exponent - 2)
  (fromLow = .gt ∨ (closed ∧ fromLow = .eq)) ∧ (fromHigh = .lt ∨ (closed ∧ fromHigh = .eq))

/-- The largest grid point that is not above a number, on the grid of multiples of
`10 ^ exponent`. -/
def Binary64.floorOn (number : Binary64) (exponent : Int) : Nat :=
  number.significand * twoTo number.exponent.toNat * tenTo (-exponent).toNat /
    (tenTo exponent.toNat * twoTo (-number.exponent).toNat)

/-- The decimal on a grid that identifies a number, if there is one: the nearer of the number's two
neighbours on the grid that do. -/
def Binary64.pick? (tie : Tie) (number : Binary64) (exponent : Int) : Option Scaled :=
  let below : Scaled := ⟨number.floorOn exponent, exponent⟩
  let above : Scaled := ⟨below.digits + 1, exponent⟩
  match number.identifiedBy below, number.identifiedBy above with
  | false, false => none
  | true, false => some below
  | false, true => some above
  | true, true =>
    match compareScaled (2 * below.digits + 1) exponent (2 * number.significand) number.exponent with
    | .gt => some below
    | .lt => some above
    | .eq =>
      match tie with
      | .up => some above
      | .toEven => if below.digits % 2 = 0 then some below else some above

/-- An exponent of ten whose power is above a positive number, and at most ten times too high. -/
def Binary64.decimalScale (number : Binary64) : Int :=
  ((number.significand.log2 : Int) + number.exponent) * 30103 / 100000 + 1

/-- Moves the zeros at the end of the digits into the exponent. -/
def Scaled.strip : Nat → Scaled → Scaled
  | 0, decimal => decimal
  | steps + 1, decimal =>
    if decimal.digits % 10 = 0 then strip steps ⟨decimal.digits / 10, decimal.exponent + 1⟩
    else decimal

/-- The shortest decimal that identifies a positive number. Seventeen digits always suffice; the
grids start one digit early because the scale may be one too high. -/
def Binary64.shortest (tie : Tie) (number : Binary64) : Scaled :=
  let scale := number.decimalScale
  let found := (List.range 20).findSome? fun (place : Nat) => number.pick? tie (scale + 1 - place)
  (found.getD ⟨number.floorOn (scale - 18), scale - 18⟩).strip 20

/-! ### Layout -/

namespace Scaled

/-- The position of the decimal point, counted from the first digit. -/
def point (decimal : Scaled) : Int :=
  ((digitsOf decimal.digits).length : Int) + decimal.exponent

/-- The positional form. A whole number keeps one zero behind the point. -/
def positional (decimal : Scaled) : Text :=
  let digits := digitsOf decimal.digits
  if 0 ≤ decimal.exponent then
    digits ++ List.replicate decimal.exponent.toNat '0' ++ ['.', '0']
  else if 0 < decimal.point then
    digits.take decimal.point.toNat ++ '.' :: digits.drop decimal.point.toNat
  else
    '0' :: '.' :: List.replicate (-decimal.point).toNat '0' ++ digits

/-- The form with one digit in front of the point and a signed exponent. -/
def scientific (decimal : Scaled) : Text :=
  let mantissa :=
    match digitsOf decimal.digits with
    | first :: second :: more => first :: '.' :: second :: more
    | digits => digits
  let exponent := decimal.point - 1
  mantissa ++ 'e' :: (if exponent < 0 then [] else ['+']) ++ integerText exponent

end Scaled

/-- The text of a signed number: always positional, with the fewest digits that identify it. -/
def plainText (negative : Bool) (number : Binary64) : Text :=
  (if negative then ['-'] else []) ++
    (if number = .zero then ['0', '.', '0'] else (number.shortest .up).positional)

/-- The text of a signed number that goes over to the scientific form where the positional one would
take more than sixteen digits in front of the point or more than four zeros behind it. -/
def conciseText (negative : Bool) (number : Binary64) : Text :=
  (if negative then ['-'] else []) ++
    (if number = .zero then ['0', '.', '0']
     else
      let decimal := number.shortest .toEven
      if -5 < decimal.point ∧ decimal.point ≤ 16 then decimal.positional else decimal.scientific)

end Scaffold.Decimal
