/-
This file holds the values that JSON texts stand for, reads them, and writes JSON.

Where a text is no JSON at all, its tokens end in one that says so. A reader that goes
through the tokens from left to right therefore meets a fault of the text exactly where
it stands. What is written has as few escapes as possible and no white space.
-/

import Scaffold.Json.Number
import Scaffold.Text.Escaped
import Scaffold.Tokens

namespace Scaffold.Json

/-! ### Tokens -/

/-- A token of a JSON text. -/
inductive Token where
  | openBrace
  | closeBrace
  | openBracket
  | closeBracket
  | colon
  | comma
  | null
  | boolean (value : Bool)
  | number (value : Number)
  | string (value : Text)
  /-- No token starts here. -/
  | malformed
deriving DecidableEq

/-- The white space between tokens: space, tab, newline and carriage return. -/
def isSpace (c : Char) : Bool :=
  c = ' ' ∨ c = '\t' ∨ c = '\n' ∨ c = '\r'

/-- The character that a letter behind a backslash stands for. -/
def unescape? : Char → Option Char
  | '"' => some '"'
  | '\\' => some '\\'
  | '/' => some '/'
  | 'b' => some '\x08'
  | 'f' => some '\x0c'
  | 'n' => some '\n'
  | 'r' => some '\r'
  | 't' => some '\t'
  | _ => none

/-- Whether a character may stand in a string as it is: anything but a control character. -/
def isPlain (c : Char) : Bool :=
  ¬ c < ' '

/-- The written contents of a string up to its closing quote, and the rest of the text. -/
def cutString? : Text → Option (Text × Text) :=
  Text.cutQuoted? isPlain

/-- The text that the written contents of a string stand for. A character above U+FFFF may be given
by a pair of surrogates; a lone surrogate stands for nothing. -/
def unescaped? : Text → Option Text
  | [] => some []
  | '\\' :: 'u' :: a :: b :: c :: d :: rest =>
    (Text.hexNumber? [a, b, c, d]).bind fun unit =>
      if 0xD800 ≤ unit ∧ unit < 0xDC00 then
        match rest with
        | '\\' :: 'u' :: e :: f :: g :: h :: rest =>
          (Text.hexNumber? [e, f, g, h]).bind fun low =>
            if 0xDC00 ≤ low ∧ low < 0xE000 then
              (unescaped? rest).map
                (Char.ofNat (0x10000 + (unit - 0xD800) * 0x400 + (low - 0xDC00)) :: ·)
            else none
        | _ => none
      else if 0xDC00 ≤ unit ∧ unit < 0xE000 then none
      else (unescaped? rest).map (Char.ofNat unit :: ·)
  | ['\\'] => none
  | '\\' :: letter :: rest => (unescape? letter).bind fun c => (unescaped? rest).map (c :: ·)
  | c :: rest => (unescaped? rest).map (c :: ·)

/-- Reads a string behind its opening quote. -/
def readString? (text : Text) : Option (Text × Text) :=
  (cutString? text).bind fun (written, rest) =>
    (unescaped? written).map fun value => (value, rest)

/-- The rest of a text behind a word that it starts with. -/
def dropWord? (word text : Text) : Option (Unit × Text) :=
  if word <+: text then some ((), text.drop word.length) else none

/-- Reads the token that starts with a given character, in front of a given text. -/
def readToken (first : Char) (rest : Text) : Token × Text :=
  match first with
  | '\x7b' => (.openBrace, rest)
  | '\x7d' => (.closeBrace, rest)
  | '[' => (.openBracket, rest)
  | ']' => (.closeBracket, rest)
  | ':' => (.colon, rest)
  | ',' => (.comma, rest)
  | '"' => orMalformed .malformed .string (readString? rest)
  | 'n' => orMalformed .malformed (fun _ => .null) (dropWord? "ull".toList rest)
  | 't' => orMalformed .malformed (fun _ => .boolean true) (dropWord? "rue".toList rest)
  | 'f' => orMalformed .malformed (fun _ => .boolean false) (dropWord? "alse".toList rest)
  | _ => orMalformed .malformed .number (readNumber? (first :: rest))

/-! ### What is left of a text is shorter -/

theorem length_readString?_le {text value rest : Text}
    (read : readString? text = some (value, rest)) : rest.length ≤ text.length := by
  obtain ⟨⟨written, behind⟩, cut, read⟩ := Option.bind_eq_some_iff.mp read
  obtain ⟨_, _, same⟩ := Option.map_eq_some_iff.mp read
  cases same
  exact Text.length_cutQuoted?_le cut

theorem length_dropWord?_le {word text rest : Text} {found : Unit}
    (dropped : dropWord? word text = some (found, rest)) : rest.length ≤ text.length := by
  unfold dropWord? at dropped
  split at dropped
  · cases dropped
    simp
  · cases dropped

theorem length_readToken_le (first : Char) (text : Text) :
    (readToken first text).2.length ≤ text.length := by
  unfold readToken
  split
  case h_7 => exact length_orMalformed_le _ _ _ _ fun _ _ => length_readString?_le
  case h_8 => exact length_orMalformed_le _ _ _ _ fun _ _ => length_dropWord?_le
  case h_9 => exact length_orMalformed_le _ _ _ _ fun _ _ => length_dropWord?_le
  case h_10 => exact length_orMalformed_le _ _ _ _ fun _ _ => length_dropWord?_le
  case h_11 =>
    exact length_orMalformed_le _ _ _ _ fun _ _ read =>
      Nat.le_of_lt_succ (length_readNumber?_lt read)
  all_goals exact Nat.le_refl _

/-- The tokens of a text. They end where the text ends or is malformed. -/
def tokens : Text → List Token
  | [] => []
  | c :: text =>
    if isSpace c then tokens text
    else
      match h : readToken c text with
      | (.malformed, _) => [.malformed]
      | (token, rest) =>
        have : rest.length ≤ text.length := by
          have shorter := length_readToken_le c text
          rwa [h] at shorter
        token :: tokens rest
termination_by text => text.length

/-! ### Reading values -/

/-- A JSON value. The members of an object stay in the order of the text. -/
inductive Value where
  | null
  | boolean (value : Bool)
  | number (value : Number)
  | string (value : Text)
  | array (elements : List Value)
  | object (members : List (Text × Value))

/-- What a token does to the depth of brackets. -/
def Token.turn : Token → Turn
  | .openBrace | .openBracket => .opens
  | .closeBrace | .closeBracket => .closes
  | _ => .stays

/-- The pieces between commas, none if there are no tokens at all. -/
def pieces (inner : List Token) : List (List Token) :=
  if inner = [] then [] else splitOutside Token.turn (· = .comma) 0 inner

/-- The value that tokens spell, for values nested no deeper than a bound. -/
def Value.ofTokens? : Nat → List Token → Option Value
  | _, [.null] => some .null
  | _, [.boolean value] => some (.boolean value)
  | _, [.number value] => some (.number value)
  | _, [.string value] => some (.string value)
  | depth + 1, .openBracket :: rest => do
    let inner ← inside? (· = .closeBracket) rest
    let elements ← (pieces inner).mapM (ofTokens? depth)
    some (.array elements)
  | depth + 1, .openBrace :: rest => do
    let inner ← inside? (· = .closeBrace) rest
    let members ← (pieces inner).mapM fun piece =>
      match piece with
      | .string name :: .colon :: value => (ofTokens? depth value).map (name, ·)
      | _ => none
    some (.object members)
  | _, _ => none

/-- The value that a text stands for. No value is nested deeper than it has tokens. -/
def Value.read? (text : Text) : Option Value :=
  let read := tokens text
  Value.ofTokens? read.length read

/-! ### Writing -/

/-- The letter that stands behind a backslash for a character that has a short escape. -/
def escapeLetter? : Char → Option Char
  | '"' => some '"'
  | '\\' => some '\\'
  | '\x08' => some 'b'
  | '\t' => some 't'
  | '\n' => some 'n'
  | '\x0c' => some 'f'
  | '\r' => some 'r'
  | _ => none

/-- The written form of a character in a string. Only quotes, backslashes and control characters are
escaped. -/
def writeChar (c : Char) : Text :=
  match escapeLetter? c with
  | some letter => ['\\', letter]
  | none =>
    if c < ' ' then Text.numbered c else [c]

/-- The written form of a string. -/
def writeString (value : Text) : Text :=
  '"' :: value.flatMap writeChar ++ ['"']

/-- The written form of a truth value. -/
def writeBoolean : Bool → Text
  | true => "true".toList
  | false => "false".toList

/-- The written form of a string that may be absent. -/
def writeOptional : Option Text → Text
  | some value => writeString value
  | none => "null".toList

/-- The written form of a member of an object. -/
def writeMember (name written : Text) : Text :=
  writeString name ++ ':' :: written

/-- Members with a comma between any two. -/
def writeMembers : List (Text × Text) → Text
  | [] => []
  | [(name, written)] => writeMember name written
  | (name, written) :: more => writeMember name written ++ ',' :: writeMembers more

/-- The written form of an object, without any white space between tokens. -/
def writeObject (members : List (Text × Text)) : Text :=
  '\x7b' :: writeMembers members ++ ['\x7d']

end Scaffold.Json
