/-
This file reads the four kinds of quoted strings of a TOML document.

A string is first cut off at its closing quotes, and then what stands between the
quotes is decoded. Line ends inside a string stay as they are written. A backslash at
the end of a line joins two lines, but no escape reaches across it: the stretches
between such backslashes are decoded one by one.
-/

import Scaffold.Text.Escaped

namespace Scaffold.Toml

/-- Whether a character may stand in a comment or in a string of one line: anything but the control
characters, of which only the tab is allowed. -/
def isPrintable (c : Char) : Bool :=
  c = '\t' ∨ (' ' ≤ c ∧ c ≠ '\x7f')

/-- Whether a character is a space, a tab, or part of a line end. -/
def isSpacing (c : Char) : Bool :=
  c = ' ' ∨ c = '\t' ∨ c = '\n' ∨ c = '\r'

/-! ### Cutting at the closing quotes -/

/-- The contents of a basic string, and what stands behind it. -/
def cutBasic? : Text → Option (Text × Text) :=
  Text.cutQuoted? isPrintable

/-- The contents of a literal string, and what stands behind it. -/
def cutLiteral? : Text → Option (Text × Text)
  | [] => none
  | '\'' :: rest => some ([], rest)
  | c :: rest =>
    if isPrintable c then (cutLiteral? rest).map fun (written, rest) => (c :: written, rest)
    else none

/-- The contents of a basic string of several lines, and what stands behind it. Up to two quotes may
stand right before the three closing ones. A carriage return may only stand in a line end. -/
def cutBasicLines? : Text → Option (Text × Text)
  | [] => none
  | '"' :: '"' :: '"' :: '"' :: '"' :: rest => some (['"', '"'], rest)
  | '"' :: '"' :: '"' :: '"' :: rest => some (['"'], rest)
  | '"' :: '"' :: '"' :: rest => some ([], rest)
  | ['\\'] => none
  | '\\' :: letter :: rest =>
    (cutBasicLines? rest).map fun (written, rest) => ('\\' :: letter :: written, rest)
  | '\r' :: '\n' :: rest =>
    (cutBasicLines? rest).map fun (written, rest) => ('\r' :: '\n' :: written, rest)
  | c :: rest =>
    if c = '\n' ∨ isPrintable c then
      (cutBasicLines? rest).map fun (written, rest) => (c :: written, rest)
    else none

/-- The contents of a literal string of several lines, and what stands behind it. -/
def cutLiteralLines? : Text → Option (Text × Text)
  | [] => none
  | '\'' :: '\'' :: '\'' :: '\'' :: '\'' :: rest => some (['\'', '\''], rest)
  | '\'' :: '\'' :: '\'' :: '\'' :: rest => some (['\''], rest)
  | '\'' :: '\'' :: '\'' :: rest => some ([], rest)
  | '\r' :: '\n' :: rest =>
    (cutLiteralLines? rest).map fun (written, rest) => ('\r' :: '\n' :: written, rest)
  | c :: rest =>
    if c = '\n' ∨ isPrintable c then
      (cutLiteralLines? rest).map fun (written, rest) => (c :: written, rest)
    else none

/-! ### Decoding -/

/-- The character that a letter behind a backslash stands for. -/
def unescape? : Char → Option Char
  | '"' => some '"'
  | '\\' => some '\\'
  | 'b' => some '\x08'
  | 'e' => some '\x1b'
  | 'f' => some '\x0c'
  | 'n' => some '\n'
  | 'r' => some '\r'
  | 't' => some '\t'
  | _ => none

/-- The character with a given code point. Surrogates are none. -/
def character? (code : Nat) : Option Char :=
  if code.isValidChar then some (Char.ofNat code) else none

/-- The text that the contents of a basic string stand for. -/
def unescaped? : Text → Option Text
  | [] => some []
  | ['\\'] => none
  | '\\' :: 'x' :: a :: b :: rest =>
    ((Text.hexNumber? [a, b]).bind character?).bind fun c => (unescaped? rest).map (c :: ·)
  | '\\' :: 'u' :: a :: b :: c :: d :: rest =>
    ((Text.hexNumber? [a, b, c, d]).bind character?).bind fun c => (unescaped? rest).map (c :: ·)
  | '\\' :: 'U' :: a :: b :: c :: d :: e :: f :: g :: h :: rest =>
    ((Text.hexNumber? [a, b, c, d, e, f, g, h]).bind character?).bind fun c =>
      (unescaped? rest).map (c :: ·)
  | '\\' :: letter :: rest =>
    (unescape? letter).bind fun c => (unescaped? rest).map (c :: ·)
  | c :: rest => (unescaped? rest).map (c :: ·)

/-- Where a reader stands with respect to a backslash at the end of a line. -/
inductive Folding where
  | off
  /-- Behind the backslash, in front of the line end that has to come. -/
  | pending
  /-- Behind the line end, in the white space that is left out. -/
  | on
deriving DecidableEq

/-- Puts a character in front of the first of some texts. -/
def consFirst (c : Char) : List Text → List Text
  | [] => [[c]]
  | text :: more => (c :: text) :: more

/-- The stretches of a text between the backslashes at the ends of its lines. Such a backslash is left
out, with all white space up to the next other character. -/
def stretches? : Folding → Text → Option (List Text)
  | .pending, [] => none
  | _, [] => some [[]]
  | .pending, c :: rest =>
    if c = ' ' ∨ c = '\t' ∨ (c = '\r' ∧ rest.head? = some '\n') then stretches? .pending rest
    else if c = '\n' then stretches? .on rest
    else none
  | _, '\\' :: letter :: rest =>
    if isSpacing letter then (stretches? .pending (letter :: rest)).map ([] :: ·)
    else (stretches? .off rest).map fun texts => consFirst '\\' (consFirst letter texts)
  | folding, c :: rest =>
    if folding = .on ∧ isSpacing c then stretches? .on rest
    else (stretches? .off rest).map (consFirst c)

/-- A text without the line end at its start. -/
def dropLineEnd : Text → Text
  | '\n' :: rest => rest
  | '\r' :: '\n' :: rest => rest
  | text => text

/-! ### Reading -/

/-- Reads the string behind a double quote. The flag tells the strings of several lines. -/
def readBasic? : Text → Option ((Text × Bool) × Text)
  | '"' :: '"' :: text =>
    (cutBasicLines? text).bind fun (written, rest) =>
      ((stretches? .off (dropLineEnd written)).bind (·.mapM unescaped?)).map fun values =>
        ((values.flatten, true), rest)
  | text =>
    (cutBasic? text).bind fun (written, rest) =>
      (unescaped? written).map fun value => ((value, false), rest)

/-- Reads the string behind a single quote. The flag tells the strings of several lines. -/
def readLiteral? : Text → Option ((Text × Bool) × Text)
  | '\'' :: '\'' :: text =>
    (cutLiteralLines? text).map fun (written, rest) => ((dropLineEnd written, true), rest)
  | text => (cutLiteral? text).map fun (written, rest) => ((written, false), rest)

end Scaffold.Toml
