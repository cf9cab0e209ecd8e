/-
This file reads dates, times and their combinations. A moment is kept as the text
that names it: with a capital letter between date and time, with seconds, with a
fraction of at most nine digits and no zero at its end, and with a positive sign
on an offset of nothing.
-/

import Scaffold.Decimal

namespace Scaffold.Toml

open Text (naturalOf)

/-- Takes a two-digit number that is no larger than a bound off a text. -/
def readPair? (bound : Nat) : Text → Option (Text × Text)
  | tens :: ones :: rest =>
    if tens.isDigit ∧ ones.isDigit ∧ naturalOf [tens, ones] ≤ bound then some ([tens, ones], rest)
    else none
  | _ => none

/-- The rest of a text behind a character that it has to start with. -/
def expect? (wanted : Char) : Text → Option Text
  | c :: rest => if c = wanted then some rest else none
  | [] => none

/-- The number of days in a month, where every fourth year is a leap year, except for centuries that
are no multiple of four hundred years. -/
def daysInMonth (year month : Nat) : Nat :=
  if month = 2 then
    if year % 4 = 0 ∧ (year % 100 ≠ 0 ∨ year % 400 = 0) then 29 else 28
  else if month = 4 ∨ month = 6 ∨ month = 9 ∨ month = 11 then 30
  else 31

/-- Reads a date. -/
def readDate? (text : Text) : Option (Text × Text) := do
  let (century, text) ← readPair? 99 text
  let (decade, text) ← readPair? 99 text
  let text ← expect? '-' text
  let (month, text) ← readPair? 12 text
  let text ← expect? '-' text
  let (day, text) ← readPair? (daysInMonth (naturalOf (century ++ decade)) (naturalOf month)) text
  if naturalOf month = 0 ∨ naturalOf day = 0 then none
  else some (century ++ decade ++ '-' :: month ++ '-' :: day, text)

/-- A fraction of a second, cut off behind the ninth digit. -/
def fractionText (digits : Text) : Text :=
  match (digits.take 9).reverse.dropWhile (· = '0') with
  | [] => []
  | kept => '.' :: kept.reverse

/-- Reads the seconds of a time, if it has any. A minute may have a leap second. -/
def readSeconds? (text : Text) : Option (Text × Text) :=
  match text with
  | ':' :: text => do
    let (seconds, text) ← readPair? 60 text
    match text with
    | '.' :: text =>
      let digits := text.takeWhile Char.isDigit
      if digits = [] then none
      else some (':' :: seconds ++ fractionText digits, text.dropWhile Char.isDigit)
    | _ => some (':' :: seconds, text)
  | _ => some (":00".toList, text)

/-- Reads a time. -/
def readTime? (text : Text) : Option (Text × Text) := do
  let (hour, text) ← readPair? 23 text
  let text ← expect? ':' text
  let (minute, text) ← readPair? 59 text
  let (seconds, text) ← readSeconds? text
  some (hour ++ ':' :: minute ++ seconds, text)

/-- Reads an offset from universal time, if there is one. -/
def readOffset? (text : Text) : Option (Text × Text) :=
  match text with
  | [] => some ([], [])
  | sign :: text =>
    if sign = 'Z' ∨ sign = 'z' then some (['Z'], text)
    else if sign = '+' ∨ sign = '-' then do
      let (hour, text) ← readPair? 23 text
      let text ← expect? ':' text
      let (minute, text) ← readPair? 59 text
      let nothing := naturalOf hour = 0 ∧ naturalOf minute = 0
      some ((if nothing then '+' else sign) :: hour ++ ':' :: minute, text)
    else none

/-- Reads what may follow a date: nothing, or a time and perhaps an offset. -/
def readDaytime? (text : Text) : Option Text :=
  match text with
  | [] => some []
  | mark :: text =>
    if mark = 'T' ∨ mark = 't' ∨ mark = ' ' then do
      let (time, text) ← readTime? text
      let (offset, text) ← readOffset? text
      if text = [] then some ('T' :: time ++ offset) else none
    else none

/-- The moment that a text names, in its usual spelling. -/
def moment? (text : Text) : Option Text :=
  match readDate? text with
  | some (date, text) => (readDaytime? text).map (date ++ ·)
  | none =>
    match readTime? text with
    | some (time, []) => some time
    | _ => none

end Scaffold.Toml
