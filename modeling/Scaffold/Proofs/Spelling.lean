/-
This file shows that the tokens of written JSON are the ones that were meant.

A written form spells tokens if it is cut into them whatever stands behind it.
Strings and words do, and so do members that are put together from them. A number
does not, since a digit behind it would be read as part of it.
-/

import Scaffold.Json.Value

namespace Scaffold.Json

/-! ### The three ways to write a character -/

theorem unescape?_of_escapeLetter? {c letter : Char} (short : escapeLetter? c = some letter) :
    letter ≠ 'u' ∧ unescape? letter = some c := by
  unfold escapeLetter? at short
  split at short
  case h_8 => cases short
  all_goals
    cases short
    decide

/-- Quotes and backslashes have a short escape. -/
theorem ne_of_escapeLetter?_eq_none {c : Char} (long : escapeLetter? c = none) :
    c ≠ '"' ∧ c ≠ '\\' := by
  constructor
  all_goals
    rintro rfl
    cases long

theorem toNat_lt_of_lt_space {c : Char} (control : c < ' ') : c.toNat < 32 :=
  control

/-- A character is written behind a backslash, as a number or as it is. -/
theorem writeChar_cases (c : Char) :
    (∃ letter, writeChar c = ['\\', letter] ∧ letter ≠ 'u' ∧ unescape? letter = some c) ∨
    (writeChar c = Text.numbered c ∧ c.toNat < 32) ∨
    (writeChar c = [c] ∧ c ≠ '"' ∧ c ≠ '\\' ∧ isPlain c = true) := by
  cases short : escapeLetter? c with
  | some letter =>
    exact .inl ⟨letter, by simp only [writeChar, short], unescape?_of_escapeLetter? short⟩
  | none =>
    by_cases control : c < ' '
    · exact .inr (.inl ⟨by simp only [writeChar, short, if_pos control],
        toNat_lt_of_lt_space control⟩)
    · obtain ⟨noQuote, noBackslash⟩ := ne_of_escapeLetter?_eq_none short
      exact .inr (.inr ⟨by simp only [writeChar, short, if_neg control], noQuote, noBackslash,
        decide_eq_true control⟩)

/-- What is written for a character is cut off whole. -/
theorem cutWhole_writeChar (c : Char) : Text.CutWhole isPlain (writeChar c) := by
  obtain ⟨letter, written, -, -⟩ | ⟨written, control⟩ | ⟨written, noQuote, noBackslash, plain⟩ :=
    writeChar_cases c
  · rw [written]
    exact Text.cutWhole_escape letter
  · rw [written]
    exact Text.cutWhole_numbered (by decide) (by omega)
  · rw [written]
    exact Text.cutWhole_plain plain noQuote noBackslash

/-! ### Reading what a string stands for -/

theorem unescaped?_plain {c : Char} (noBackslash : c ≠ '\\') (text : Text) :
    unescaped? (c :: text) = (unescaped? text).map (c :: ·) := by
  rw [unescaped?]
  · exact fun _ _ _ _ _ backslash _ => noBackslash backslash
  · exact fun backslash _ => noBackslash backslash
  · exact fun _ _ backslash _ => noBackslash backslash

theorem unescaped?_escape {letter c : Char} (noNumber : letter ≠ 'u')
    (short : unescape? letter = some c) (text : Text) :
    unescaped? ('\\' :: letter :: text) = (unescaped? text).map (c :: ·) := by
  rw [unescaped?, short, Option.bind_some]
  exact fun _ _ _ _ _ number _ => noNumber number

theorem unescaped?_writeChar (c : Char) (text : Text) :
    unescaped? (writeChar c ++ text) = (unescaped? text).map (c :: ·) := by
  obtain ⟨letter, written, noNumber, short⟩ | ⟨written, control⟩ | ⟨written, -, noBackslash, -⟩ :=
    writeChar_cases c
  · rw [written]
    exact unescaped?_escape noNumber short text
  · have spelled := Text.hexNumber?_pair (Nat.lt_trans control (by decide : 32 < 256))
    rw [written, Text.numbered]
    simp only [List.cons_append, List.nil_append]
    rw [unescaped?, spelled, Option.bind_some, if_neg (by omega), if_neg (by omega),
      Char.ofNat_toNat]
  · rw [written]
    exact unescaped?_plain noBackslash text

/-- A string is read back up to its closing quote. -/
theorem readString?_written (value rest : Text) :
    readString? (value.flatMap writeChar ++ '"' :: rest) = some (value, rest) := by
  have spelled : unescaped? (value.flatMap writeChar) = some value :=
    Text.decode_flatMap unescaped?_writeChar rfl value
  rw [readString?, cutString?, Text.cutQuoted?_flatMap cutWhole_writeChar, Option.bind_some]
  exact congrArg (Option.map fun value => (value, rest)) spelled

example : writeString "é\"\\\n\x01".toList = "\"é\\\"\\\\\\n\\u0001\"".toList := by decide

/-! ### What a written form spells -/

/-- The written form is cut into the tokens, whatever text stands behind it. -/
def Spells (written : Text) (spelled : List Token) : Prop :=
  ∀ rest, tokens (written ++ rest) = spelled ++ tokens rest

theorem Spells.append {first second : Text} {firstTokens secondTokens : List Token}
    (one : Spells first firstTokens) (two : Spells second secondTokens) :
    Spells (first ++ second) (firstTokens ++ secondTokens) := by
  intro rest
  rw [List.append_assoc, one, two, List.append_assoc]

theorem spells_of_readToken {first : Char} {behind : Text} {token : Token}
    (solid : isSpace first = false) (sound : token ≠ .malformed)
    (read : ∀ rest, readToken first (behind ++ rest) = (token, rest)) :
    Spells (first :: behind) [token] := by
  intro rest
  rw [List.cons_append, tokens, if_neg (ne_true_of_eq_false solid)]
  split
  case h_1 malformed =>
    rw [read] at malformed
    exact absurd (congrArg Prod.fst malformed) sound
  case h_2 found =>
    rw [read] at found
    cases found
    rfl

theorem spells_writeString (value : Text) : Spells (writeString value) [.string value] := by
  refine spells_of_readToken rfl Token.noConfusion fun rest => ?_
  show readToken '"' (value.flatMap writeChar ++ ['"'] ++ rest) = (.string value, rest)
  rw [List.append_assoc, List.singleton_append, readToken, readString?_written, orMalformed]

theorem dropWord?_append (word rest : Text) : dropWord? word (word ++ rest) = some ((), rest) := by
  rw [dropWord?, if_pos (List.prefix_append word rest), List.drop_left]

theorem spells_word {first : Char} {behind : Text} {token : Token}
    (solid : isSpace first = false) (sound : token ≠ .malformed)
    (read : ∀ rest, readToken first rest =
      orMalformed .malformed (fun _ => token) (dropWord? behind rest)) :
    Spells (first :: behind) [token] := by
  refine spells_of_readToken solid sound fun rest => ?_
  rw [read, dropWord?_append, orMalformed]

theorem spells_null : Spells "null".toList [.null] := by
  show Spells ('n' :: "ull".toList) [.null]
  exact spells_word rfl Token.noConfusion fun _ => rfl

theorem spells_writeBoolean (value : Bool) : Spells (writeBoolean value) [.boolean value] := by
  cases value with
  | true =>
    show Spells ('t' :: "rue".toList) [.boolean true]
    exact spells_word rfl Token.noConfusion fun _ => rfl
  | false =>
    show Spells ('f' :: "alse".toList) [.boolean false]
    exact spells_word rfl Token.noConfusion fun _ => rfl

theorem spells_writeOptional (value : Option Text) :
    Spells (writeOptional value) [value.elim .null .string] := by
  cases value with
  | none => exact spells_null
  | some text => exact spells_writeString text

/-! ### Objects -/

/-- The tokens of members, each of them with a value of one token. -/
def memberTokens : List (Text × Token) → List Token
  | [] => []
  | [(name, value)] => [.string name, .colon, value]
  | (name, value) :: more => [.string name, .colon, value, .comma] ++ memberTokens more

theorem spells_writeMember {name written : Text} {value : Token}
    (spelled : Spells written [value]) :
    Spells (writeMember name written) [.string name, .colon, value] := by
  have colon : Spells [':'] [.colon] :=
    spells_of_readToken rfl Token.noConfusion fun _ => rfl
  exact (spells_writeString name).append (colon.append spelled)

theorem spells_writeMembers {Key : Type} (name : Key → Text) {written : Key → Text}
    {value : Key → Token} (spelled : ∀ key, Spells (written key) [value key]) (keys : List Key) :
    Spells (writeMembers (keys.map fun key => (name key, written key)))
      (memberTokens (keys.map fun key => (name key, value key))) := by
  have comma : Spells [','] [.comma] :=
    spells_of_readToken rfl Token.noConfusion fun _ => rfl
  induction keys with
  | nil => exact fun _ => rfl
  | cons key more inductionHypothesis =>
    cases more with
    | nil => exact spells_writeMember (spelled key)
    | cons next more =>
      exact (spells_writeMember (spelled key)).append (comma.append inductionHypothesis)

theorem spells_writeObject {members : List (Text × Text)} {spelled : List Token}
    (inner : Spells (writeMembers members) spelled) :
    Spells (writeObject members) (.openBrace :: spelled ++ [.closeBrace]) := by
  have opening : Spells ['\x7b'] [.openBrace] :=
    spells_of_readToken rfl Token.noConfusion fun _ => rfl
  have closing : Spells ['\x7d'] [.closeBrace] :=
    spells_of_readToken rfl Token.noConfusion fun _ => rfl
  exact (opening.append inner).append closing

end Scaffold.Json
