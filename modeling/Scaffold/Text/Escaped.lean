/-
This file cuts a string off a text at its closing quote and writes characters as
numbers, as far as the formats that are read here do it alike.

A backslash protects the character behind it from being taken for the closing quote.
What the characters in front of that quote stand for is decided later. So a written
text is cut off whole as soon as what is written for each of its characters is.
-/

import Scaffold.Text.Lines

namespace Scaffold.Text

/-! ### Hexadecimal digits -/

/-- The value of a hexadecimal digit, in upper or lower case. -/
def hexDigit? (c : Char) : Option Nat :=
  if '0' ≤ c ∧ c ≤ '9' then some (c.toNat - '0'.toNat)
  else if 'a' ≤ c ∧ c ≤ 'f' then some (c.toNat - 'a'.toNat + 10)
  else if 'A' ≤ c ∧ c ≤ 'F' then some (c.toNat - 'A'.toNat + 10)
  else none

/-- The number that hexadecimal digits spell. -/
def hexNumber? (digits : Text) : Option Nat :=
  digits.foldlM (fun value digit => (hexDigit? digit).map (value * 16 + ·)) 0

/-- The hexadecimal digit, in lower case, of a number below sixteen. -/
def hexChar (value : Nat) : Char :=
  if value < 10 then Char.ofNat ('0'.toNat + value) else Char.ofNat ('a'.toNat + (value - 10))

/-- A character below U+0100 by its number: a backslash, a letter and four digits. -/
def numbered (c : Char) : Text :=
  ['\\', 'u', '0', '0', hexChar (c.toNat / 16), hexChar (c.toNat % 16)]

theorem hexDigit?_hexChar : ∀ value < 16, hexDigit? (hexChar value) = some value := by
  decide

theorem hexChar_plain : ∀ value < 16, hexChar value ≠ '"' ∧ hexChar value ≠ '\\' := by
  decide

/-- Two digits behind two zeros spell any number below 256. -/
theorem hexNumber?_pair {number : Nat} (small : number < 256) :
    hexNumber? ['0', '0', hexChar (number / 16), hexChar (number % 16)] = some number := by
  have zero : hexDigit? '0' = some 0 := hexDigit?_hexChar 0 (by decide)
  have high := hexDigit?_hexChar (number / 16) (by omega)
  have low := hexDigit?_hexChar (number % 16) (by omega)
  simp only [hexNumber?, List.foldlM_cons, List.foldlM_nil, zero, high, low, Option.map_some,
    Option.bind_eq_bind, Option.bind_some, Option.pure_def, Option.some.injEq]
  omega

/-! ### Cutting at the closing quote -/

/-- The written contents of a string up to its closing quote, and the rest of the text. Every
character has to be one that is allowed in a string, or to stand behind a backslash. -/
def cutQuoted? (allowed : Char → Bool) : Text → Option (Text × Text)
  | [] => none
  | '"' :: rest => some ([], rest)
  | ['\\'] => none
  | '\\' :: letter :: rest =>
    (cutQuoted? allowed rest).map fun (written, rest) => ('\\' :: letter :: written, rest)
  | c :: rest =>
    if allowed c then (cutQuoted? allowed rest).map fun (written, rest) => (c :: written, rest)
    else none

/-- Where only the part in front changes, what is left of a text stays as short as it was. -/
theorem length_le_of_map {Front Value : Type} {cut : Option (Front × Text)}
    {change : Front × Text → Value × Text} {value : Value} {rest tail : Text}
    (found : cut.map change = some (value, rest))
    (shorter : ∀ {front behind}, cut = some (front, behind) → behind.length ≤ tail.length)
    (kept : ∀ pair, (change pair).2 = pair.2) : rest.length ≤ tail.length := by
  obtain ⟨pair, cutTail, same⟩ := Option.map_eq_some_iff.mp found
  have behind : pair.2 = rest := (kept pair).symm.trans (congrArg Prod.snd same)
  rw [← behind]
  exact shorter cutTail

section

variable {allowed : Char → Bool}

theorem length_cutQuoted?_le {text written rest : Text}
    (cut : cutQuoted? allowed text = some (written, rest)) : rest.length ≤ text.length := by
  fun_induction cutQuoted? allowed text generalizing written rest with
  | case1 => cases cut
  | case2 => cases cut; simp
  | case3 => cases cut
  | case4 letter tail inductionHypothesis =>
    have shorter := length_le_of_map cut inductionHypothesis fun _ => rfl
    exact Nat.le_add_right_of_le (Nat.le_add_right_of_le shorter)
  | case5 c tail _ _ _ _ inductionHypothesis =>
    exact Nat.le_add_right_of_le (length_le_of_map cut inductionHypothesis fun _ => rfl)
  | case6 => cases cut

/-- A written form is cut off whole, whatever stands behind it. -/
def CutWhole (allowed : Char → Bool) (written : Text) : Prop :=
  ∀ behind, cutQuoted? allowed (written ++ behind) =
    (cutQuoted? allowed behind).map fun (inner, rest) => (written ++ inner, rest)

theorem cutWhole_nil : CutWhole allowed [] := fun _ => Option.map_id'.symm

theorem CutWhole.append {first second : Text} (one : CutWhole allowed first)
    (two : CutWhole allowed second) : CutWhole allowed (first ++ second) := by
  intro behind
  rw [List.append_assoc, one, two, Option.map_map]
  refine congrArg (Option.map · _) (funext fun (inner, rest) => ?_)
  exact congrArg (Prod.mk · rest) (List.append_assoc first second inner).symm

theorem cutWhole_escape (letter : Char) : CutWhole allowed ['\\', letter] := by
  intro behind
  rw [List.cons_append, List.cons_append, List.nil_append, cutQuoted?]
  rfl

theorem cutWhole_plain {c : Char} (allows : allowed c = true) (noQuote : c ≠ '"')
    (noBackslash : c ≠ '\\') : CutWhole allowed [c] := by
  intro behind
  rw [List.cons_append, List.nil_append, cutQuoted?, if_pos allows]
  · rfl
  · exact noQuote
  · exact fun backslash _ => noBackslash backslash
  · exact fun _ _ backslash _ => noBackslash backslash

/-- Where digits are allowed, a character may be written by its number. -/
theorem cutWhole_numbered (digits : ∀ value < 16, allowed (hexChar value) = true) {c : Char}
    (small : c.toNat < 256) : CutWhole allowed (numbered c) := by
  have digit {value : Nat} (below : value < 16) : CutWhole allowed [hexChar value] :=
    cutWhole_plain (digits value below) (hexChar_plain value below).1 (hexChar_plain value below).2
  have zero : CutWhole allowed ['0'] := digit (by decide : 0 < 16)
  have pair := (digit (by omega : c.toNat / 16 < 16)).append (digit (by omega : c.toNat % 16 < 16))
  exact (cutWhole_escape 'u').append (zero.append (zero.append pair))

/-! ### Written texts -/

variable {write : Char → Text}

theorem cutWhole_flatMap (whole : ∀ c, CutWhole allowed (write c)) (text : Text) :
    CutWhole allowed (text.flatMap write) := by
  induction text with
  | nil => exact cutWhole_nil
  | cons c text inductionHypothesis =>
    rw [List.flatMap_cons]
    exact (whole c).append inductionHypothesis

/-- A written text is cut off at the quote behind it. -/
theorem cutQuoted?_flatMap (whole : ∀ c, CutWhole allowed (write c)) (text rest : Text) :
    cutQuoted? allowed (text.flatMap write ++ '"' :: rest) = some (text.flatMap write, rest) := by
  rw [cutWhole_flatMap whole text, cutQuoted?, Option.map_some]
  exact congrArg (fun written => some (written, rest)) (List.append_nil _)

/-- What undoes the writing of one character at a time undoes that of a text. -/
theorem decode_flatMap {decode? : Text → Option Text}
    (step : ∀ c rest, decode? (write c ++ rest) = (decode? rest).map (c :: ·))
    (ends : decode? [] = some []) (text : Text) : decode? (text.flatMap write) = some text := by
  induction text with
  | nil => exact ends
  | cons c text inductionHypothesis =>
    rw [List.flatMap_cons, step, inductionHypothesis, Option.map_some]

end

end Scaffold.Text
