/-
This file reads the numbers of a JSON text.

A number without a fraction and an exponent is an integer as long as it fits in
64 bits. Any other number is a binary64 number, computed from as many leading
digits as fit in 64 bits and one or two operations with powers of ten, each of
them rounded.
-/

import Scaffold.Decimal

namespace Scaffold.Json

open Decimal (Binary64)

/-- A number as a JSON text gives it. -/
inductive Number where
  | integer (value : Int)
  | floating (negative : Bool) (magnitude : Binary64)
deriving DecidableEq

/-- Appends digits to a significand while it stays below `2 ^ 64`. Gives the significand and the
number of digits that are left over. -/
def absorbDigits : Nat → Text → Nat × Nat
  | significand, [] => (significand, 0)
  | significand, digit :: more =>
    let next := significand * 10 + (digit.toNat - '0'.toNat)
    if next < Decimal.twoTo 64 then absorbDigits next more else (significand, more.length + 1)

/-- The power `10 ^ exponent`, rounded. -/
def powerOfTen? (exponent : Nat) : Option Binary64 :=
  Binary64.ofDecimal? 1 exponent

/-- The value of a significand and a power of ten. A number too large to hold is none; one too small
is zero. Below `10 ^ -308` the division goes in two steps. -/
def scale? (significand : Nat) (exponent : Int) : Option Binary64 := do
  let number ← Binary64.ofQuotient? significand 1
  if significand = 0 then some .zero
  else if 308 < exponent then none
  else if 0 ≤ exponent then number.mul? (← powerOfTen? exponent.toNat)
  else if -308 ≤ exponent then number.div? (← powerOfTen? (-exponent).toNat)
  else if -616 ≤ exponent then
    (← number.div? (← powerOfTen? 308)).div? (← powerOfTen? (-exponent - 308).toNat)
  else some .zero

/-- The largest exponent that is taken at its word. -/
def exponentLimit : Nat := 2147483647

/-- The parts of a number: its sign, the digits in front of the point, the digits behind it, and the
sign and digits of its exponent. -/
structure Numeral where
  negative : Bool
  whole : Text
  fraction : Option Text
  exponent : Option (Bool × Text)

/-- The value of a numeral; none if it is out of range. Minus zero is a floating-point number. -/
def Numeral.value? (numeral : Numeral) : Option Number :=
  let (significand, dropped) := absorbDigits 0 numeral.whole
  match numeral.fraction, numeral.exponent, dropped with
  | none, none, 0 =>
    if numeral.negative then
      if 0 < significand ∧ significand ≤ Decimal.twoTo 63 then some (.integer (-significand))
      else (scale? significand 0).map (.floating true)
    else some (.integer significand)
  | _, _, _ =>
    let fraction := numeral.fraction.getD []
    let (significand, unused) := absorbDigits significand fraction
    let places : Int := (dropped : Int) - (fraction.length - unused : Nat)
    let magnitude? :=
      match numeral.exponent with
      | none => scale? significand places
      | some (downwards, digits) =>
        let size := Text.naturalOf digits
        if exponentLimit < size then
          if significand ≠ 0 ∧ !downwards then none else some .zero
        else scale? significand (if downwards then places - size else places + size)
    magnitude?.map (.floating numeral.negative)

/-- The digits at the start of a text, and the rest of it. -/
def spanDigits (text : Text) : Text × Text :=
  (text.takeWhile Char.isDigit, text.dropWhile Char.isDigit)

/-- The sign at the start of an exponent, and the rest of it. Without a sign it goes upwards. -/
def spanSign : Text → Bool × Text
  | '-' :: rest => (true, rest)
  | '+' :: rest => (false, rest)
  | rest => (false, rest)

/-- Reads the fraction of a number, if it has one. None if there is a point without digits. -/
def readFraction? : Text → Option (Option Text × Text)
  | '.' :: text =>
    let (digits, rest) := spanDigits text
    if digits = [] then none else some (some digits, rest)
  | text => some (none, text)

/-- Reads the exponent of a number, if it has one. None if there is an exponent without digits. -/
def readExponent? : Text → Option (Option (Bool × Text) × Text)
  | [] => some (none, [])
  | mark :: text =>
    if mark = 'e' ∨ mark = 'E' then
      let (downwards, unsigned) := spanSign text
      let (digits, rest) := spanDigits unsigned
      if digits = [] then none else some (some (downwards, digits), rest)
    else some (none, mark :: text)

/-- Reads an unsigned number at the start of a text, as far as it goes. A zero in front may only stand
alone. -/
def readUnsigned? (negative : Bool) (text : Text) : Option (Number × Text) :=
  let (whole, rest) := spanDigits text
  if whole = [] ∨ (whole.head? = some '0' ∧ whole ≠ ['0']) then none
  else
    (readFraction? rest).bind fun (fraction, rest) =>
      (readExponent? rest).bind fun (exponent, rest) =>
        (Numeral.mk negative whole fraction exponent).value?.map fun number => (number, rest)

/-- Reads the number at the start of a text, as far as it goes. -/
def readNumber? : Text → Option (Number × Text)
  | '-' :: text => readUnsigned? true text
  | text => readUnsigned? false text

/-- The digits that name a number in a message. -/
def Number.text : Number → Text
  | .integer value => Text.integerText value
  | .floating negative magnitude => Decimal.conciseText negative magnitude

/-! ### What is left of a text is shorter -/

theorem length_spanDigits (text : Text) :
    (spanDigits text).1.length + (spanDigits text).2.length = text.length := by
  rw [spanDigits, ← List.length_append, List.takeWhile_append_dropWhile]

theorem length_spanSign_le (text : Text) : (spanSign text).2.length ≤ text.length := by
  unfold spanSign
  split <;> simp

theorem length_readFraction?_le {text rest : Text} {fraction : Option Text}
    (read : readFraction? text = some (fraction, rest)) : rest.length ≤ text.length := by
  unfold readFraction? at read
  split at read
  · next tail =>
    have total := length_spanDigits tail
    simp only at read
    split at read
    · cases read
    · cases read
      simp only [List.length_cons]
      omega
  · cases read
    exact Nat.le_refl _

theorem length_readExponent?_le {text rest : Text} {exponent : Option (Bool × Text)}
    (read : readExponent? text = some (exponent, rest)) : rest.length ≤ text.length := by
  unfold readExponent? at read
  split at read
  · cases read
    exact Nat.le_refl _
  · next mark tail =>
    have total := length_spanDigits (spanSign tail).2
    have signed := length_spanSign_le tail
    simp only at read
    split at read
    · split at read
      · cases read
      · cases read
        simp only [List.length_cons]
        omega
    · cases read
      exact Nat.le_refl _

theorem length_readUnsigned?_lt {negative : Bool} {text rest : Text} {number : Number}
    (read : readUnsigned? negative text = some (number, rest)) : rest.length < text.length := by
  have total := length_spanDigits text
  unfold readUnsigned? at read
  simp only at read
  split at read
  · cases read
  · next proper =>
    obtain ⟨⟨fraction, behindFraction⟩, readFraction, read⟩ := Option.bind_eq_some_iff.mp read
    obtain ⟨⟨exponent, behindExponent⟩, readExponent, read⟩ := Option.bind_eq_some_iff.mp read
    obtain ⟨_, _, read⟩ := Option.map_eq_some_iff.mp read
    cases read
    have fractionShorter : behindFraction.length ≤ (spanDigits text).2.length :=
      length_readFraction?_le readFraction
    have exponentShorter : behindExponent.length ≤ behindFraction.length :=
      length_readExponent?_le readExponent
    have digits : (spanDigits text).1.length ≠ 0 := fun none =>
      proper (Or.inl (List.length_eq_zero_iff.mp none))
    show behindExponent.length < text.length
    omega

theorem length_readNumber?_lt {text rest : Text} {number : Number}
    (read : readNumber? text = some (number, rest)) : rest.length < text.length := by
  unfold readNumber? at read
  split at read
  · have shorter := length_readUnsigned?_lt read
    simp only [List.length_cons]
    omega
  · exact length_readUnsigned?_lt read

end Scaffold.Json
