/-
This file reads the values that stand in a TOML document without quotes: truth
values, numbers and moments.

How a number is spelled decides whether a document can be read; whether it has a
value is asked later and only of some documents. So a number that is out of range,
or that has something else where digits should be, may be read all the same.
-/

import Scaffold.Text.Escaped
import Scaffold.Toml.Moment

namespace Scaffold.Toml

open Decimal (Binary64)
open Text (naturalOf)

/-- A floating-point number. -/
inductive Real where
  | finite (negative : Bool) (magnitude : Binary64)
  | infinite (negative : Bool)
  | nan
deriving DecidableEq

/-- The digits that name a floating-point number in a message. -/
def Real.text : Real → Text
  | .finite negative magnitude => Decimal.plainText negative magnitude
  | .infinite false => "inf".toList
  | .infinite true => "-inf".toList
  | .nan => "NaN".toList

/-- A value without quotes. -/
inductive Plain where
  | boolean (value : Bool)
  | integer (value : Int)
  | real (value : Real)
  | moment (text : Text)
  /-- A number that is spelled as one but has no value. -/
  | valueless
deriving DecidableEq

/-- The value of an integer. It has one if it fits in 64 bits. -/
def Plain.ofInteger (value : Int) : Plain :=
  if -9223372036854775808 ≤ value ∧ value ≤ 9223372036854775807 then .integer value else .valueless

/-- The value of a floating-point number, rounded to the nearest one. It has none if it would round to
infinity. -/
def Plain.ofDecimal (negative : Bool) (significand : Nat) (exponent : Int) : Plain :=
  match Binary64.ofDecimal? significand exponent with
  | some magnitude => .real (.finite negative magnitude)
  | none => .valueless

/-! ### Digits -/

/-- Whether every underscore stands right between two digits, given whether a digit stands in front of
the text. -/
def groupsDigits (isDigit : Char → Bool) (behindDigit : Bool) : Text → Bool
  | [] => true
  | c :: rest =>
    (c ≠ '_' ∨ (behindDigit ∧ rest.head?.any isDigit)) ∧ groupsDigits isDigit (isDigit c) rest

/-- Digits without the underscores that group them. -/
def ungrouped? (isDigit : Char → Bool) (text : Text) : Option Text :=
  if text ≠ [] ∧ text.all (fun c => isDigit c ∨ c = '_') ∧ groupsDigits isDigit false text then
    some (text.filter (· ≠ '_'))
  else none

/-- The digits of a whole decimal number. A zero in front may only stand alone. -/
def wholeDigits? (text : Text) : Option Text :=
  (ungrouped? Char.isDigit text).bind fun digits =>
    if digits.head? = some '0' ∧ digits ≠ ['0'] then none else some digits

/-- The sign in front of a number, and the rest of it. -/
def splitSign : Text → Bool × Text
  | '-' :: rest => (true, rest)
  | '+' :: rest => (false, rest)
  | rest => (false, rest)

/-! ### Whole numbers -/

/-- Whether a character is a digit of a base, where the digits are hexadecimal ones below the base. -/
def isDigitOf (base : Nat) (c : Char) : Bool :=
  (Text.hexDigit? c).any fun digit => digit < base

/-- Reads the digits of a number in a base. If there are none, it has no value. -/
def readBased? (base : Nat) (text : Text) : Option Plain :=
  if text = [] then some .valueless
  else
    (ungrouped? (isDigitOf base) text).map fun digits =>
      .ofInteger
        (digits.foldl (fun value digit => value * base + (Text.hexDigit? digit).getD 0) 0 : Nat)

/-- Whether a text is taken for a whole number by its first group of digits and by the underscores in
it, whatever else it is made of. A space, or the mark of a fraction or of an exponent, tells it from
one. -/
def isLooseNumber (text : Text) : Bool :=
  let behind := text.dropWhile Char.isDigit
  text.head?.any (fun c => c.isDigit ∧ c ≠ '0') ∧ behind.head? = some '_' ∧
    !behind.any (" .eE".toList.contains ·) ∧ groupsDigits (isDigitOf 16) false text

/-- Reads a whole number. Hexadecimal, octal and binary numbers have no sign. -/
def readInteger? (text : Text) : Option Plain :=
  match text with
  | '0' :: 'x' :: digits => readBased? 16 digits
  | '0' :: 'o' :: digits => readBased? 8 digits
  | '0' :: 'b' :: digits => readBased? 2 digits
  | _ =>
    let (negative, unsigned) := splitSign text
    match wholeDigits? unsigned with
    | some digits => some (.ofInteger (if negative then -naturalOf digits else naturalOf digits))
    | none => if isLooseNumber unsigned then some .valueless else none

/-! ### Floating-point numbers -/

/-- Whether a character can stand in the digits of a decimal number. -/
def isDigitOrGroup (c : Char) : Bool :=
  c.isDigit ∨ c = '_'

/-- Reads the exponent of a number, zero if there is none. It has to end the number. -/
def readExponent? : Text → Option Int
  | [] => some 0
  | mark :: text =>
    if mark = 'e' ∨ mark = 'E' then
      let (negative, unsigned) := splitSign text
      (ungrouped? Char.isDigit unsigned).map fun digits =>
        if negative then -(naturalOf digits : Int) else naturalOf digits
    else none

/-- Reads a floating-point number without its sign: the number that its digits spell, and the power of
ten that scales it. It has a fraction or an exponent or both. -/
def readScaled? (text : Text) : Option (Nat × Int) := do
  let whole ← wholeDigits? (text.takeWhile isDigitOrGroup)
  match text.dropWhile isDigitOrGroup with
  | [] => none
  | '.' :: rest =>
    let fraction ← ungrouped? Char.isDigit (rest.takeWhile isDigitOrGroup)
    let exponent ← readExponent? (rest.dropWhile isDigitOrGroup)
    some (naturalOf (whole ++ fraction), exponent - fraction.length)
  | rest =>
    let exponent ← readExponent? rest
    some (naturalOf whole, exponent)

/-- Reads a floating-point number. -/
def readReal? (text : Text) : Option Plain :=
  let (negative, unsigned) := splitSign text
  if unsigned = "inf".toList then some (.real (.infinite negative))
  else if unsigned = "nan".toList then some (.real .nan)
  else
    (readScaled? unsigned).map fun (significand, exponent) =>
      .ofDecimal negative significand exponent

/-! ### Values -/

/-- Reads a value without quotes. No text can be read in two ways. -/
def Plain.read? (text : Text) : Option Plain :=
  if text = "true".toList then some (.boolean true)
  else if text = "false".toList then some (.boolean false)
  else (readInteger? text <|> readReal? text) <|> (moment? text).map .moment

end Scaffold.Toml
