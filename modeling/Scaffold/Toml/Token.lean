/-
This file cuts a TOML document into tokens.

Where a token stands is told by the number of bytes that are still unread in front
of it and behind it. Counted from the end of the document, a place does not depend
on what comes before it.
-/

import Scaffold.Text.Utf8
import Scaffold.Tokens
import Scaffold.Toml.Strings

namespace Scaffold.Toml

/-- The stretch between two places in a document, by the bytes that are unread at each of them. -/
structure Span where
  start : Nat
  stop : Nat
deriving DecidableEq

/-- What a token is. -/
inductive Kind where
  | dot
  | equals
  | comma
  | openBracket
  | closeBracket
  | openBrace
  | closeBrace
  /-- Spaces and tabs. -/
  | space (written : Text)
  | lineEnd
  | comment
  /-- A run of other characters: an unquoted key, or an unquoted value up to its first dot. -/
  | bare (written : Text)
  /-- A quoted string and whether its quotes allow several lines. -/
  | string (value : Text) (manyLines : Bool)
  /-- No token starts here. -/
  | malformed
deriving DecidableEq

/-- A token and where it stands. -/
structure Token where
  kind : Kind
  span : Span
deriving DecidableEq

/-- Whether a character is a space or a tab. -/
def isSpace (c : Char) : Bool :=
  c = ' ' ∨ c = '\t'

/-- The characters that end a run of bare characters. A quote is none of them: it only starts a string
where a token starts. -/
def isSpecial (c : Char) : Bool :=
  ".=,[]\x7b\x7d \t\n\r#".toList.contains c

/-- Reads the rest of a comment, up to the end of its line. -/
def readComment (text : Text) : Kind × Text :=
  let rest := text.dropWhile isPrintable
  match rest with
  | [] | '\n' :: _ | '\r' :: _ => (.comment, rest)
  | _ => (.malformed, [])

/-- Reads the token that starts with a given character, in front of a given text. -/
def readToken (first : Char) (text : Text) : Kind × Text :=
  match first with
  | '.' => (.dot, text)
  | '=' => (.equals, text)
  | ',' => (.comma, text)
  | '[' => (.openBracket, text)
  | ']' => (.closeBracket, text)
  | '\x7b' => (.openBrace, text)
  | '\x7d' => (.closeBrace, text)
  | '\n' => (.lineEnd, text)
  | '\r' =>
    match text with
    | '\n' :: rest => (.lineEnd, rest)
    | _ => (.malformed, [])
  | '#' => readComment text
  | '"' => orMalformed .malformed (fun (value, manyLines) => .string value manyLines) (readBasic? text)
  | '\'' => orMalformed .malformed (fun (value, manyLines) => .string value manyLines) (readLiteral? text)
  | _ =>
    if isSpace first then (.space (first :: text.takeWhile isSpace), text.dropWhile isSpace)
    else (.bare (first :: text.takeWhile (!isSpecial ·)), text.dropWhile (!isSpecial ·))

/-! ### What is left of a text is shorter -/

theorem length_cutLiteral?_le {text written rest : Text}
    (cut : cutLiteral? text = some (written, rest)) : rest.length ≤ text.length := by
  fun_induction cutLiteral? text generalizing written rest with
  | case1 => cases cut
  | case2 => cases cut; simp
  | case3 c tail _ _ inductionHypothesis =>
    exact Nat.le_add_right_of_le (Text.length_le_of_map cut inductionHypothesis fun _ => rfl)
  | case4 => cases cut

theorem length_cutBasicLines?_le {text written rest : Text}
    (cut : cutBasicLines? text = some (written, rest)) : rest.length ≤ text.length := by
  fun_induction cutBasicLines? text generalizing written rest with
  | case1 => cases cut
  | case2 => cases cut; simp +arith
  | case3 => cases cut; simp +arith
  | case4 => cases cut; simp +arith
  | case5 => cases cut
  | case6 letter tail inductionHypothesis =>
    have shorter := Text.length_le_of_map cut inductionHypothesis fun _ => rfl
    exact Nat.le_add_right_of_le (Nat.le_add_right_of_le shorter)
  | case7 tail inductionHypothesis =>
    have shorter := Text.length_le_of_map cut inductionHypothesis fun _ => rfl
    exact Nat.le_add_right_of_le (Nat.le_add_right_of_le shorter)
  | case8 c tail _ _ _ _ _ _ _ inductionHypothesis =>
    exact Nat.le_add_right_of_le (Text.length_le_of_map cut inductionHypothesis fun _ => rfl)
  | case9 => cases cut

theorem length_cutLiteralLines?_le {text written rest : Text}
    (cut : cutLiteralLines? text = some (written, rest)) : rest.length ≤ text.length := by
  fun_induction cutLiteralLines? text generalizing written rest with
  | case1 => cases cut
  | case2 => cases cut; simp +arith
  | case3 => cases cut; simp +arith
  | case4 => cases cut; simp +arith
  | case5 tail inductionHypothesis =>
    have shorter := Text.length_le_of_map cut inductionHypothesis fun _ => rfl
    exact Nat.le_add_right_of_le (Nat.le_add_right_of_le shorter)
  | case6 c tail _ _ _ _ _ inductionHypothesis =>
    exact Nat.le_add_right_of_le (Text.length_le_of_map cut inductionHypothesis fun _ => rfl)
  | case7 => cases cut

theorem length_readBasic?_le {text rest : Text} {read : Text × Bool}
    (found : readBasic? text = some (read, rest)) : rest.length ≤ text.length := by
  unfold readBasic? at found
  split at found
  · obtain ⟨⟨written, behind⟩, cut, found⟩ := Option.bind_eq_some_iff.mp found
    obtain ⟨_, _, same⟩ := Option.map_eq_some_iff.mp found
    cases same
    exact Nat.le_add_right_of_le (Nat.le_add_right_of_le (length_cutBasicLines?_le cut))
  · obtain ⟨⟨written, behind⟩, cut, found⟩ := Option.bind_eq_some_iff.mp found
    obtain ⟨_, _, same⟩ := Option.map_eq_some_iff.mp found
    cases same
    exact Text.length_cutQuoted?_le cut

theorem length_readLiteral?_le {text rest : Text} {read : Text × Bool}
    (found : readLiteral? text = some (read, rest)) : rest.length ≤ text.length := by
  unfold readLiteral? at found
  split at found
  · have shorter := Text.length_le_of_map found length_cutLiteralLines?_le fun _ => rfl
    exact Nat.le_add_right_of_le (Nat.le_add_right_of_le shorter)
  · exact Text.length_le_of_map found length_cutLiteral?_le fun _ => rfl

theorem length_dropWhile_le (drops : Char → Bool) (text : Text) :
    (text.dropWhile drops).length ≤ text.length :=
  (List.dropWhile_sublist drops).length_le

theorem length_readComment_le (text : Text) : (readComment text).2.length ≤ text.length := by
  have shorter := length_dropWhile_le isPrintable text
  unfold readComment
  simp only
  split
  · exact shorter
  · exact shorter
  · exact shorter
  · exact Nat.zero_le _

theorem length_readToken_le (first : Char) (text : Text) :
    (readToken first text).2.length ≤ text.length := by
  unfold readToken
  split
  case h_9 =>
    split
    · simp
    · exact Nat.zero_le _
  case h_10 => exact length_readComment_le text
  case h_11 => exact length_orMalformed_le _ _ _ _ fun _ _ => length_readBasic?_le
  case h_12 => exact length_orMalformed_le _ _ _ _ fun _ _ => length_readLiteral?_le
  case h_13 =>
    split
    · exact length_dropWhile_le _ _
    · exact length_dropWhile_le _ _
  all_goals exact Nat.le_refl _

/-- The tokens of a document. They end where it ends or is malformed. -/
def tokens : Text → List Token
  | [] => []
  | c :: text =>
    let read := readToken c text
    ⟨read.1, ⟨Text.byteLength (c :: text), Text.byteLength read.2⟩⟩ :: tokens read.2
termination_by text => text.length
decreasing_by exact Nat.lt_succ_of_le (length_readToken_le c text)

end Scaffold.Toml
