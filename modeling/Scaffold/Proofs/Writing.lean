/-
This file writes TOML documents and reads them back. Any text can stand in a string,
so that whatever a document could declare is declared by some document.

A document has a line for each of its members, and every other table is in braces.
Lines and members are cut off before they are read, at marks outside of all brackets.
So what is written has to keep its tokens together: none of them may be taken for such
a mark.
-/

import Mathlib.Data.List.Forall2
import Scaffold.Toml.Document

namespace Scaffold.Toml

/-! ### Written forms -/

/-- The written form of a character in a string. What may not stand there as it is, is written as a
number. -/
def writeChar (c : Char) : Text :=
  if isPrintable c ∧ c ≠ '"' ∧ c ≠ '\\' then [c]
  else Text.numbered c

/-- The written form of a string. -/
def writeString (value : Text) : Text :=
  '"' :: value.flatMap writeChar ++ ['"']

/-- A value that is written without brackets. -/
inductive Atom where
  | text (value : Text)
  | flag (value : Bool)
deriving DecidableEq

/-- The written form of a value without brackets. -/
def Atom.write : Atom → Text
  | .text value => writeString value
  | .flag true => "true".toList
  | .flag false => "false".toList

/-- Keys with written values, and a mark behind each of them. -/
def writeMembers (mark : Char) : List (Text × Text) → Text
  | [] => []
  | (name, written) :: rest => writeString name ++ '=' :: written ++ mark :: writeMembers mark rest

/-- The written form of a table in braces. -/
def writeTable (members : List (Text × Text)) : Text :=
  '\x7b' :: writeMembers ',' members ++ ['\x7d']

/-- The written form of a table whose values have no brackets. -/
def writeRecord (atoms : List (Text × Atom)) : Text :=
  writeTable (atoms.map fun pair => (pair.1, pair.2.write))

/-- A document with a line for each of its members. -/
def writeDocument (members : List (Text × Text)) : Text :=
  writeMembers '\n' members

/-! ### Strings -/

/-- A character is written as it is or as a number. -/
theorem writeChar_cases (c : Char) :
    (writeChar c = [c] ∧ isPrintable c = true ∧ c ≠ '"' ∧ c ≠ '\\') ∨
    (writeChar c = Text.numbered c ∧ c.toNat < 256) := by
  by_cases plain : isPrintable c ∧ c ≠ '"' ∧ c ≠ '\\'
  · exact .inl ⟨if_pos plain, plain⟩
  · refine .inr ⟨if_neg plain, Nat.lt_of_not_le fun large => plain ⟨?_, ?_, ?_⟩⟩
    · refine decide_eq_true (.inr ⟨Nat.le_trans (by decide : 32 ≤ 256) large, ?_⟩)
      rintro rfl
      exact absurd large (by decide)
    · rintro rfl
      exact absurd large (by decide)
    · rintro rfl
      exact absurd large (by decide)

/-- What is written for a character is cut off whole. -/
theorem cutWhole_writeChar (c : Char) : Text.CutWhole isPrintable (writeChar c) := by
  obtain ⟨written, printable, noQuote, noBackslash⟩ | ⟨written, small⟩ := writeChar_cases c
  · rw [written]
    exact Text.cutWhole_plain printable noQuote noBackslash
  · rw [written]
    exact Text.cutWhole_numbered (by decide) small

theorem unescaped?_writeChar (c : Char) (text : Text) :
    unescaped? (writeChar c ++ text) = (unescaped? text).map (c :: ·) := by
  obtain ⟨written, _, _, noBackslash⟩ | ⟨written, small⟩ := writeChar_cases c
  · rw [written, List.singleton_append, unescaped?]
    · exact fun backslash _ => noBackslash backslash
    · exact fun _ _ _ backslash _ => noBackslash backslash
    · exact fun _ _ _ _ _ backslash _ => noBackslash backslash
    · exact fun _ _ _ _ _ _ _ _ _ backslash _ => noBackslash backslash
    · exact fun _ _ backslash _ => noBackslash backslash
  · have valid : c.toNat.isValidChar := .inl (Nat.lt_trans small (by decide))
    have character : character? c.toNat = some c := by
      rw [character?, if_pos valid, Char.ofNat_toNat]
    rw [written, Text.numbered]
    simp only [List.cons_append, List.nil_append]
    rw [unescaped?, Text.hexNumber?_pair small, Option.bind_some, character, Option.bind_some]

/-- No written character starts with a quote, so only what stands behind an empty string could make
its quotes the first two of three. -/
theorem readBasic?_written (value : Text) {rest : Text} (other : rest.head? ≠ some '"') :
    readBasic? (value.flatMap writeChar ++ '"' :: rest) = some ((value, false), rest) := by
  have single (text : Text) : value.flatMap writeChar ++ '"' :: rest ≠ '"' :: '"' :: text := by
    cases value with
    | nil =>
      intro same
      rw [List.flatMap_nil, List.nil_append] at same
      exact other (by rw [(List.cons.inj same).2, List.head?_cons])
    | cons c value =>
      intro same
      obtain ⟨written, _, noQuote, _⟩ | ⟨written, _⟩ := writeChar_cases c
      · rw [List.flatMap_cons, written] at same
        exact noQuote (List.cons.inj same).1
      · rw [List.flatMap_cons, written] at same
        exact absurd (List.cons.inj same).1 (by decide)
  rw [readBasic?]
  · have spelled : unescaped? (value.flatMap writeChar) = some value :=
      Text.decode_flatMap unescaped?_writeChar rfl value
    rw [cutBasic?, Text.cutQuoted?_flatMap cutWhole_writeChar, Option.bind_some]
    exact congrArg (Option.map fun value => ((value, false), rest)) spelled
  · exact single

/-! ### Tokens of written forms -/

/-- A character that is a token by itself. -/
theorem exists_tokens_mark (mark : Char) (kind : Kind)
    (read : ∀ text, readToken mark text = (kind, text)) (rest : Text) :
    ∃ token : Token, token.kind = kind ∧ tokens (mark :: rest) = token :: tokens rest := by
  rw [tokens, read]
  exact ⟨_, rfl, rfl⟩

theorem exists_tokens_string (value : Text) {rest : Text} (other : rest.head? ≠ some '"') :
    ∃ token : Token, token.kind = .string value false ∧
      tokens (writeString value ++ rest) = token :: tokens rest := by
  have read : readToken '"' (value.flatMap writeChar ++ '"' :: rest) =
      (.string value false, rest) := by
    rw [readToken, readBasic?_written value other, orMalformed]
  have string : writeString value ++ rest = '"' :: (value.flatMap writeChar ++ '"' :: rest) :=
    congrArg ('"' :: ·) (List.append_assoc _ _ _)
  rw [string, tokens, read]
  exact ⟨_, rfl, rfl⟩

/-- Behind a word a special character ends the run of bare characters. -/
theorem exists_tokens_word (first : Char) (word : Text) {rest : Text}
    (read : ∀ text, readToken first text =
      (.bare (first :: text.takeWhile (!isSpecial ·)), text.dropWhile (!isSpecial ·)))
    (bare : word.all (!isSpecial ·) = true) (special : rest.head?.any isSpecial = true) :
    ∃ token : Token, token.kind = .bare (first :: word) ∧
      tokens (first :: word ++ rest) = token :: tokens rest := by
  have run := List.all_eq_true.mp bare
  have stopped : rest.takeWhile (!isSpecial ·) = [] ∧ rest.dropWhile (!isSpecial ·) = rest := by
    cases rest with
    | nil => exact ⟨rfl, rfl⟩
    | cons c rest =>
      have ends : ¬ (!isSpecial c) = true := by
        rw [show isSpecial c = true from special]
        decide
      exact ⟨List.takeWhile_cons_of_neg ends, List.dropWhile_cons_of_neg ends⟩
  rw [List.cons_append, tokens, read, List.takeWhile_append_of_pos run,
    List.dropWhile_append_of_pos run, stopped.1, stopped.2, List.append_nil]
  exact ⟨_, rfl, rfl⟩

/-! ### Tokens that hold together -/

/-- The separators are among those of members and lines. -/
def OnlyMarks (separates : Token → Bool) : Prop :=
  ∀ token, separates token = true → token.kind = .comma ∨ token.kind = .lineEnd

/-- The tokens of a value or a member: nothing may be trimmed off at their ends, and no separator of
members or lines is seen in them. -/
structure Whole (spelled : List Token) : Prop where
  first : ∀ token ∈ spelled.head?, token.isFiller = false
  last : ∀ token ∈ spelled.getLast?, token.isFiller = false
  passes : ∀ separates, OnlyMarks separates → HoldsTogether Token.turn separates 0 spelled

theorem dropWhile_of_head? {drops : Token → Bool} {spelled : List Token}
    (keeps : ∀ token ∈ spelled.head?, drops token = false) : spelled.dropWhile drops = spelled := by
  cases spelled with
  | nil => rfl
  | cons token rest =>
    exact List.dropWhile_cons_of_neg (ne_true_of_eq_false (keeps token rfl))

theorem Whole.trimTokens {spelled : List Token} (whole : Whole spelled)
    {dropFirst dropLast : Token → Bool}
    (onlyFirst : ∀ token, token.isFiller = false → dropFirst token = false)
    (onlyLast : ∀ token, token.isFiller = false → dropLast token = false) :
    trimTokens dropFirst dropLast spelled = spelled := by
  have last : spelled.reverse.dropWhile dropLast = spelled.reverse := by
    refine dropWhile_of_head? fun token member => onlyLast token (whole.last token ?_)
    rwa [List.head?_reverse] at member
  rw [Toml.trimTokens, dropWhile_of_head? fun token member =>
    onlyFirst token (whole.first token member), last, List.reverse_reverse]

theorem Whole.withoutFiller {spelled : List Token} (whole : Whole spelled) :
    withoutFiller spelled = spelled :=
  whole.trimTokens (fun _ => id) fun _ => id

theorem Whole.append {first second : List Token} (one : Whole first) (two : Whole second) :
    Whole (first ++ second) := by
  refine ⟨fun token member => ?_, fun token member => ?_, fun separates kinds =>
    (one.passes separates kinds).append (two.passes separates kinds)⟩
  · rw [List.head?_append, Option.mem_def, Option.or_eq_some_iff] at member
    exact member.elim (one.first token) fun both => two.first token both.2
  · rw [List.getLast?_append, Option.mem_def, Option.or_eq_some_iff] at member
    exact member.elim (two.last token) fun both => one.last token both.2

theorem whole_singleton {token : Token} (stays : token.turn = .stays)
    (solid : token.isFiller = false) (noComma : token.kind ≠ .comma) : Whole [token] := by
  have only {other : Token} (same : other ∈ some token) : other.isFiller = false := by
    rw [← Option.some.inj same]
    exact solid
  refine ⟨fun _ => only, fun _ => only, fun separates kinds => ?_⟩
  refine HoldsTogether.singleton stays (.inr (Bool.eq_false_iff.mpr fun seen => ?_))
  rcases kinds token seen with comma | lineEnd
  · exact noComma comma
  · rw [Token.isFiller] at solid
    simp [lineEnd] at solid

theorem whole_string {token : Token} {value : Text} (kind : token.kind = .string value false) :
    Whole [token] := by
  refine whole_singleton ?_ ?_ ?_ <;> simp [Token.turn, Token.isFiller, Token.isBlank, kind]

theorem whole_word {token : Token} {written : Text} (kind : token.kind = .bare written) :
    Whole [token] := by
  refine whole_singleton ?_ ?_ ?_ <;> simp [Token.turn, Token.isFiller, Token.isBlank, kind]

theorem whole_equals {token : Token} (kind : token.kind = .equals) : Whole [token] := by
  refine whole_singleton ?_ ?_ ?_ <;> simp [Token.turn, Token.isFiller, Token.isBlank, kind]

theorem whole_braces {opening closing : Token} {inner : List Token}
    (opens : opening.kind = .openBrace) (closes : closing.kind = .closeBrace)
    (passes : ∀ separates, OnlyMarks separates → HoldsTogether Token.turn separates 1 inner) :
    Whole (opening :: (inner ++ [closing])) := by
  refine ⟨?_, fun token member => ?_, fun separates kinds => ?_⟩
  · rintro token ⟨⟩
    simp [Token.isFiller, Token.isBlank, opens]
  · rw [← List.cons_append, List.getLast?_concat] at member
    rw [← Option.some.inj member]
    simp [Token.isFiller, Token.isBlank, closes]
  · refine HoldsTogether.brackets ?_ ?_ ?_ (passes separates kinds)
    · rw [Token.turn, opens]
    · rw [Token.turn, closes]
    · refine Bool.eq_false_iff.mpr fun seen => ?_
      rcases kinds opening seen with comma | lineEnd
      · exact Kind.noConfusion (opens.symm.trans comma)
      · exact Kind.noConfusion (opens.symm.trans lineEnd)

/-! ### Values -/

/-- Wherever the written form of a value stands, it is read as a tree of which something holds. What
stands behind it has to end a word. -/
def ReadsAs (depth : Nat) (written : Text) (meant : Tree → Prop) : Prop :=
  ∀ rest : Text, rest.head?.any isSpecial = true →
    ∃ (spelled : List Token) (tree : Tree), tokens (written ++ rest) = spelled ++ tokens rest ∧
      Whole spelled ∧ readValue? depth spelled = some tree ∧ meant tree

theorem ReadsAs.imp {depth : Nat} {written : Text} {meant implied : Tree → Prop}
    (reads : ReadsAs depth written meant) (implies : ∀ tree, meant tree → implied tree) :
    ReadsAs depth written implied := by
  intro rest special
  obtain ⟨spelled, tree, cut, whole, read, holds⟩ := reads rest special
  exact ⟨spelled, tree, cut, whole, read, implies tree holds⟩

/-- What a value without brackets shows in its place. -/
def Atom.found : Atom → Schema.Found
  | .text value => .text value
  | .flag value => .boolean value

theorem head?_ne_quote_of_special {rest : Text} (special : rest.head?.any isSpecial = true) :
    rest.head? ≠ some '"' := by
  intro quote
  rw [quote] at special
  exact absurd special (by decide)

theorem readValue?_string {token : Token} {value : Text} (kind : token.kind = .string value false)
    (depth : Nat) : readValue? depth [token] = some (.text token.span value) := by
  cases depth <;> simp [readValue?, readSimple?, kind]

theorem readValue?_word {token : Token} {written : Text} {value : Plain}
    (kind : token.kind = .bare written) (means : Plain.read? written = some value) (depth : Nat) :
    readValue? depth [token] = some (.plain token.span value) := by
  have simple : readSimple? [token] = some (.plain token.span value) := by
    simp [readSimple?, kind, Token.written?, means, spanOf]
  cases depth <;> simp [readValue?, kind, simple]

theorem readsAs_atom (depth : Nat) (atom : Atom) :
    ReadsAs depth atom.write fun tree => tree.found = atom.found := by
  intro rest special
  cases atom with
  | text value =>
    obtain ⟨token, kind, cut⟩ := exists_tokens_string value (head?_ne_quote_of_special special)
    exact ⟨[token], _, cut, whole_string kind, readValue?_string kind depth, rfl⟩
  | flag value =>
    cases value with
    | true =>
      obtain ⟨token, kind, cut⟩ := exists_tokens_word 't' "rue".toList (fun _ => rfl) rfl special
      exact ⟨[token], _, cut, whole_word kind, readValue?_word kind rfl depth, rfl⟩
    | false =>
      obtain ⟨token, kind, cut⟩ := exists_tokens_word 'f' "alse".toList (fun _ => rfl) rfl special
      exact ⟨[token], _, cut, whole_word kind, readValue?_word kind rfl depth, rfl⟩

/-! ### Members -/

/-- A key, the written form of its value, and what holds of the tree of that value. -/
structure Member where
  name : Text
  written : Text
  meant : Tree → Prop

/-- The member as it is written. -/
def Member.pair (member : Member) : Text × Text :=
  (member.name, member.written)

/-- The entry of a table is the one that was meant. -/
def Member.Holds (member : Member) (entry : Key × Tree) : Prop :=
  entry.1.text = member.name ∧ member.meant entry.2

/-- The tokens hold together and are read as an assignment of the value to the key. -/
structure Member.Spelled (member : Member) (depth : Nat) (piece : List Token) : Prop where
  starts : ∃ first rest, piece = first :: rest ∧ first.kind ≠ .openBracket
  whole : Whole piece
  assigns : ∃ key value, readAssignment? (readValue? depth) piece = some ⟨[], key, value⟩ ∧
    member.Holds (key, value)

theorem readKey?_string {token : Token} {name : Text} (kind : token.kind = .string name false) :
    readKey? [token] = some ([], ⟨name, token.span⟩) := by
  simp [readKey?, keyParts?, Token.key?, Token.isBlank, kind, nestingLimit]

/-- A key in quotes, the sign and the tokens of a value make an assignment. -/
theorem readAssignment?_of_tokens {readValue? : List Token → Option Tree} {key equals : Token}
    {name : Text} {value : List Token} {tree : Tree} (kindKey : key.kind = .string name false)
    (kindEquals : equals.kind = .equals) (whole : Whole value)
    (read : readValue? value = some tree) :
    readAssignment? readValue? (key :: equals :: value) =
      some ⟨[], ⟨name, key.span⟩, tree⟩ := by
  have front : (key :: equals :: value).takeWhile (·.kind ≠ .equals) = [key] := by
    simp [kindKey, kindEquals]
  have back : (key :: equals :: value).dropWhile (·.kind ≠ .equals) = equals :: value := by
    simp [kindKey, kindEquals]
  rw [readAssignment?, front, back, (whole_string kindKey).withoutFiller, readKey?_string kindKey]
  simp only [Option.bind_eq_bind, Option.bind_some, whole.withoutFiller, read]

/-- A member is cut off at the mark behind it. -/
theorem exists_tokens_member {member : Member} {depth : Nat} {mark : Char} {kind : Kind}
    (reads : ReadsAs depth member.written member.meant) (special : isSpecial mark = true)
    (readMark : ∀ text, readToken mark text = (kind, text)) (rest : Text) :
    ∃ (piece : List Token) (token : Token), member.Spelled depth piece ∧ token.kind = kind ∧
      tokens (writeString member.name ++ '=' :: member.written ++ mark :: rest) =
        piece ++ token :: tokens rest := by
  obtain ⟨value, tree, cutValue, whole, read, meant⟩ := reads (mark :: rest) special
  obtain ⟨token, kindMark, cutMark⟩ := exists_tokens_mark mark kind readMark rest
  obtain ⟨equals, kindEquals, cutEquals⟩ :=
    exists_tokens_mark '=' .equals (fun _ => rfl) (member.written ++ mark :: rest)
  have other : ('=' :: (member.written ++ mark :: rest)).head? ≠ some '"' := by
    rw [List.head?_cons]
    decide
  obtain ⟨key, kindKey, cutKey⟩ := exists_tokens_string member.name other
  refine ⟨key :: equals :: value, token, ⟨⟨key, equals :: value, rfl, ?_⟩, ?_,
    ⟨member.name, key.span⟩, tree, ?_, rfl, meant⟩, kindMark, ?_⟩
  · rw [kindKey]
    exact Kind.noConfusion
  · exact (whole_string kindKey).append ((whole_equals kindEquals).append whole)
  · exact readAssignment?_of_tokens kindKey kindEquals whole read
  · rw [List.append_assoc, List.cons_append, cutKey, cutEquals, cutValue, cutMark]
    rfl

/-- Members are cut at the marks behind them, into the pieces that they spell. -/
theorem exists_tokens_members {members : List Member} {depth : Nat} (mark : Char) (kind : Kind)
    (reads : ∀ member ∈ members, ReadsAs depth member.written member.meant)
    (special : isSpecial mark = true) (separating : kind = .comma ∨ kind = .lineEnd)
    (readMark : ∀ text, readToken mark text = (kind, text)) (rest : Text) :
    ∃ (pieces : List (List Token)) (spelled : List Token),
      tokens (writeMembers mark (members.map Member.pair) ++ rest) = spelled ++ tokens rest ∧
      List.Forall₂ (fun member piece => member.Spelled depth piece) members pieces ∧
      splitOutside Token.turn (·.kind = kind) 0 spelled = pieces ++ [[]] ∧
      ∀ separates, OnlyMarks separates → HoldsTogether Token.turn separates 1 spelled := by
  induction members with
  | nil => exact ⟨[], [], rfl, .nil, rfl, fun _ _ _ _ _ _ _ cut => cut⟩
  | cons member members inductionHypothesis =>
    obtain ⟨pieces, spelled, cut, spells, split, passes⟩ :=
      inductionHypothesis fun other later => reads other (List.mem_cons_of_mem _ later)
    obtain ⟨piece, token, spelledHere, kindMark, cutHere⟩ :=
      exists_tokens_member (reads member List.mem_cons_self) special readMark
        (writeMembers mark (members.map Member.pair) ++ rest)
    have stays : token.turn = .stays := by
      rw [Token.turn, kindMark]
      rcases separating with rfl | rfl <;> rfl
    refine ⟨piece :: pieces, piece ++ token :: spelled, ?_, .cons spelledHere spells, ?_,
      fun separates kinds => ?_⟩
    · have text : writeMembers mark ((member :: members).map Member.pair) ++ rest =
          writeString member.name ++ '=' :: member.written ++
            mark :: (writeMembers mark (members.map Member.pair) ++ rest) := by
        rw [List.map_cons, Member.pair, writeMembers, List.append_assoc, List.cons_append]
      rw [text, cutHere, cut, List.append_assoc, List.cons_append]
    · have here : splitOutside Token.turn (·.kind = kind) 0 (token :: spelled) =
          [] :: (pieces ++ [[]]) := by
        rw [splitOutside, if_pos ⟨rfl, decide_eq_true kindMark⟩, split]
      have onlyMarks : OnlyMarks (·.kind = kind) := by
        intro other seen
        rwa [of_decide_eq_true seen]
      rw [spelledHere.whole.passes _ onlyMarks 0 _ _ _ (Nat.zero_le 0) here, List.append_nil,
        List.cons_append]
    · exact ((spelledHere.whole.passes separates kinds).mono (Nat.zero_le 1)).append
        ((HoldsTogether.singleton stays (.inl Nat.one_pos)).append (passes separates kinds))

/-! ### Assignments to keys that are not there yet -/

theorem changeAt?_of_fresh {key : Key} {tree : Tree} {change : Tree → Option Tree}
    {entries : Entries} (fresh : ∀ entry ∈ entries, entry.1.text ≠ key.text) :
    changeAt? key (some tree) change entries = some (entries ++ [(key, tree)]) := by
  induction entries with
  | nil => rfl
  | cons entry entries inductionHypothesis =>
    rw [changeAt?, if_neg (fresh entry List.mem_cons_self),
      inductionHypothesis fun other later => fresh other (List.mem_cons_of_mem _ later)]
    rfl

theorem assignAll?_of_fresh (entries added : Entries)
    (distinct : ((entries ++ added).map fun entry => entry.1.text).Nodup) :
    assignAll? entries (added.map fun (key, tree) => ⟨[], key, tree⟩) =
      some (entries ++ added) := by
  induction added generalizing entries with
  | nil => rw [List.append_nil]; rfl
  | cons entry added inductionHypothesis =>
    have fresh : ∀ other ∈ entries, other.1.text ≠ entry.1.text := by
      rw [List.map_append, List.nodup_append] at distinct
      exact fun other member => distinct.2.2 _ (List.mem_map_of_mem member) _ List.mem_cons_self
    have onward := inductionHypothesis (entries ++ [entry]) (by
      rwa [List.append_assoc, List.singleton_append])
    rw [List.append_assoc, List.singleton_append] at onward
    rw [← onward, assignAll?, List.map_cons, List.foldlM_cons, assign?, changeAt?_of_fresh fresh]
    rfl

/-- The pieces that members spell are read one by one. -/
theorem exists_entries_of_spelled {members : List Member} {pieces : List (List Token)}
    {depth : Nat}
    (spells : List.Forall₂ (fun member piece => member.Spelled depth piece) members pieces) :
    ∃ added : Entries,
      pieces.mapM (readAssignment? (readValue? depth)) =
        some (added.map fun (key, tree) => ⟨[], key, tree⟩) ∧
      List.Forall₂ Member.Holds members added := by
  induction spells with
  | nil => exact ⟨[], rfl, .nil⟩
  | cons spelled _ inductionHypothesis =>
    obtain ⟨key, tree, read, holds⟩ := spelled.assigns
    obtain ⟨added, readMore, holdMore⟩ := inductionHypothesis
    refine ⟨(key, tree) :: added, ?_, .cons holds holdMore⟩
    rw [List.mapM_cons, read, readMore]
    rfl

theorem map_text_of_holds {members : List Member} {entries : Entries}
    (holds : List.Forall₂ Member.Holds members entries) :
    entries.map (fun entry => entry.1.text) = members.map Member.name := by
  induction holds with
  | nil => rfl
  | cons holdsHere _ inductionHypothesis =>
    rw [List.map_cons, List.map_cons, holdsHere.1, inductionHypothesis]

/-- The pieces that members spell are assigned one after the other, if their names are distinct. -/
theorem exists_assignments_of_spelled {members : List Member} {pieces : List (List Token)}
    {depth : Nat}
    (spells : List.Forall₂ (fun member piece => member.Spelled depth piece) members pieces)
    (distinct : (members.map Member.name).Nodup) :
    ∃ assignments entries, pieces.mapM (readAssignment? (readValue? depth)) = some assignments ∧
      assignAll? [] assignments = some entries ∧ List.Forall₂ Member.Holds members entries := by
  obtain ⟨added, read, holds⟩ := exists_entries_of_spelled spells
  refine ⟨_, added, read, assignAll?_of_fresh [] added ?_, holds⟩
  rwa [List.nil_append, map_text_of_holds holds]

theorem exists_member_of_spelled {members : List Member} {pieces : List (List Token)} {depth : Nat}
    (spells : List.Forall₂ (fun member piece => member.Spelled depth piece) members pieces)
    {piece : List Token} (isPiece : piece ∈ pieces) :
    ∃ member : Member, member.Spelled depth piece := by
  induction spells with
  | nil => cases isPiece
  | cons spelled _ inductionHypothesis =>
    rcases List.mem_cons.mp isPiece with rfl | later
    · exact ⟨_, spelled⟩
    · exact inductionHypothesis later

/-! ### Tables and documents -/

/-- The mark behind the last element leaves an empty piece, which is no element. -/
theorem elements_of_split {inner : List Token} {pieces : List (List Token)}
    (split : splitOutside Token.turn (·.kind = .comma) 0 inner = pieces ++ [[]])
    (whole : ∀ piece ∈ pieces, Whole piece) : elements inner = pieces := by
  have trimmed : (pieces ++ [[]]).map withoutFiller = pieces ++ [[]] := by
    rw [List.map_append, List.map_congr_left fun piece isPiece => (whole piece isPiece).withoutFiller,
      List.map_id']
    rfl
  rw [elements, split, trimmed]
  exact (if_pos List.getLast?_concat).trans List.dropLast_concat

/-- Behind the last line there is an empty one, which says nothing. -/
theorem statementLines_of_split {text : List Token} {pieces : List (List Token)}
    (split : splitOutside Token.turn (·.kind = .lineEnd) 0 text = pieces ++ [[]])
    (whole : ∀ piece ∈ pieces, Whole piece) (solid : ∀ piece ∈ pieces, piece ≠ []) :
    statementLines text = pieces := by
  have blank (token : Token) (kept : token.isFiller = false) : token.isBlank = false := by
    simp_all [Token.isFiller]
  have ending (token : Token) (kept : token.isFiller = false) :
      decide (token.isBlank = true ∨ token.kind = .comment) = false := by
    simp_all [Token.isFiller]
  rw [statementLines, split, List.map_append, List.map_congr_left fun piece isPiece =>
    (whole piece isPiece).trimTokens blank ending, List.map_id', List.filter_append,
    List.filter_eq_self.mpr fun piece isPiece => decide_eq_true (solid piece isPiece)]
  exact List.append_nil _

section

variable {members : List Member} {depth : Nat}

theorem readValue?_braces {opening closing : Token} {inner : List Token}
    {assignments : List Assignment} {entries : Entries} (opens : opening.kind = .openBrace)
    (closes : closing.kind = .closeBrace)
    (read : (elements inner).mapM (readAssignment? (readValue? depth)) = some assignments)
    (assigned : assignAll? [] assignments = some entries) :
    readValue? (depth + 1) (opening :: (inner ++ [closing])) =
      some (.table (spanOf opening (inner ++ [closing])) .inline entries) := by
  have ends : inside? (·.kind = .closeBrace) (inner ++ [closing]) = some inner := by
    rw [inside?, List.getLast?_concat, List.dropLast_concat]
    exact if_pos (decide_eq_true closes)
  simp only [readValue?, opens, ends, Option.bind_eq_bind, Option.bind_some, read, assigned]

/-- A table in braces is read as the entries that its members mean. -/
theorem readsAs_writeTable
    (reads : ∀ member ∈ members, ReadsAs depth member.written member.meant)
    (distinct : (members.map Member.name).Nodup) :
    ReadsAs (depth + 1) (writeTable (members.map Member.pair)) fun tree =>
      ∃ span entries, tree = .table span .inline entries ∧
        List.Forall₂ Member.Holds members entries := by
  intro rest _
  obtain ⟨closing, closes, cutClosing⟩ :=
    exists_tokens_mark '\x7d' .closeBrace (fun _ => rfl) rest
  obtain ⟨pieces, inner, cutInner, spells, split, passes⟩ :=
    exists_tokens_members ',' .comma reads (by decide) (.inl rfl) (fun _ => rfl) ('\x7d' :: rest)
  obtain ⟨opening, opens, cutOpening⟩ :=
    exists_tokens_mark '\x7b' .openBrace (fun _ => rfl)
      (writeMembers ',' (members.map Member.pair) ++ '\x7d' :: rest)
  obtain ⟨assignments, entries, read, assigned, holds⟩ :=
    exists_assignments_of_spelled spells distinct
  have pieceWise : elements inner = pieces := elements_of_split split fun piece isPiece =>
    (exists_member_of_spelled spells isPiece).elim fun _ spelled => spelled.whole
  rw [← pieceWise] at read
  refine ⟨opening :: (inner ++ [closing]), _, ?_, whole_braces opens closes passes,
    readValue?_braces opens closes read assigned, _, entries, rfl, holds⟩
  have text : writeTable (members.map Member.pair) ++ rest =
      '\x7b' :: (writeMembers ',' (members.map Member.pair) ++ '\x7d' :: rest) := by
    rw [writeTable, List.cons_append, List.cons_append, List.append_assoc, List.singleton_append]
  rw [text, cutOpening, cutInner, cutClosing, List.cons_append, List.append_assoc,
    List.singleton_append]

/-- Where a table is written item by item, an entry is read for each of them. -/
theorem readsAs_writeTable_map {Item : Type} {items : List Item} (member : Item → Member)
    (reads : ∀ item ∈ items, ReadsAs depth (member item).written (member item).meant)
    (distinct : (items.map fun item => (member item).name).Nodup) :
    ReadsAs (depth + 1) (writeTable (items.map fun item => (member item).pair)) fun tree =>
      ∃ span entries, tree = .table span .inline entries ∧
        List.Forall₂ (fun item => (member item).Holds) items entries := by
  have tables := readsAs_writeTable (List.forall_mem_map.mpr reads) (by rwa [List.map_map])
  rw [List.map_map] at tables
  refine tables.imp ?_
  rintro tree ⟨span, entries, table, holds⟩
  exact ⟨span, entries, table, List.forall₂_map_left_iff.mp holds⟩

/-- A member whose value has no brackets. -/
def Atom.member (pair : Text × Atom) : Member :=
  ⟨pair.1, pair.2.write, fun tree => tree.found = pair.2.found⟩

/-- The entries of a table show values without brackets, each under its own name. -/
def Shows (atoms : List (Text × Atom)) (entries : Entries) : Prop :=
  List.Forall₂ (fun pair => (Atom.member pair).Holds) atoms entries

theorem Shows.exists_cons {name : Text} {atom : Atom} {atoms : List (Text × Atom)}
    {entries : Entries} (shows : Shows ((name, atom) :: atoms) entries) :
    ∃ key tree rest, entries = (key, tree) :: rest ∧ key.text = name ∧ tree.found = atom.found ∧
      Shows atoms rest := by
  obtain ⟨⟨key, tree⟩, rest, ⟨named, found⟩, showsRest, split⟩ := List.forall₂_cons_left_iff.mp shows
  exact ⟨key, tree, rest, split, named, found, showsRest⟩

theorem readsAs_writeRecord {atoms : List (Text × Atom)}
    (distinct : (atoms.map Prod.fst).Nodup) :
    ReadsAs (depth + 1) (writeRecord atoms) fun tree =>
      ∃ span entries, tree = .table span .inline entries ∧ Shows atoms entries :=
  readsAs_writeTable_map Atom.member (fun pair _ => readsAs_atom depth pair.2) distinct

example : writeRecord [(['a'], .text "é\"".toList), (['b'], .flag true)] =
    "\x7b\"a\"=\"é\\u0022\",\"b\"=true,\x7d".toList := by decide

/-- Assignments alone, without any header, all stand at the top of a document. -/
theorem gather_assignments (assignments : List Assignment) :
    gather (assignments.map .assignment) = (assignments, []) := by
  induction assignments with
  | nil => rfl
  | cons assignment assignments inductionHypothesis =>
    rw [List.map_cons, gather, inductionHypothesis]

/-- A document starts with a quote, if it is not empty. -/
theorem dropByteOrderMark_writeDocument (members : List (Text × Text)) :
    dropByteOrderMark (writeDocument members) = writeDocument members := by
  cases members <;> rfl

/-- The lines that members spell are read as assignments. -/
theorem mapM_readStatement?_of_spelled {pieces : List (List Token)}
    (spells : List.Forall₂ (fun member piece => member.Spelled nestingLimit piece) members pieces) :
    pieces.mapM readStatement? =
      (pieces.mapM (readAssignment? (readValue? nestingLimit))).map (List.map .assignment) := by
  induction spells with
  | nil => rfl
  | cons spelled _ inductionHypothesis =>
    obtain ⟨first, rest, rfl, other⟩ := spelled.starts
    obtain ⟨key, tree, read, _⟩ := spelled.assigns
    rw [List.mapM_cons, List.mapM_cons, inductionHypothesis, readStatement?, if_neg other, read]
    cases List.mapM (readAssignment? (readValue? nestingLimit)) _ <;> rfl

/-- A document is read as the entries that its members mean. -/
theorem read?_writeDocument
    (reads : ∀ member ∈ members, ReadsAs nestingLimit member.written member.meant)
    (distinct : (members.map Member.name).Nodup) :
    ∃ entries, read? (writeDocument (members.map Member.pair)) = some entries ∧
      List.Forall₂ Member.Holds members entries := by
  obtain ⟨pieces, text, cut, spells, split, _⟩ :=
    exists_tokens_members '\n' .lineEnd reads (by decide) (.inr rfl) (fun _ => rfl) []
  obtain ⟨assignments, entries, read, assigned, holds⟩ :=
    exists_assignments_of_spelled spells distinct
  have lines : statementLines (tokens (writeDocument (members.map Member.pair))) = pieces := by
    rw [List.append_nil] at cut
    rw [writeDocument, cut, tokens, List.append_nil]
    refine statementLines_of_split split (fun piece isPiece => ?_) fun piece isPiece => ?_
    · obtain ⟨member, spelled⟩ := exists_member_of_spelled spells isPiece
      exact spelled.whole
    · obtain ⟨member, spelled⟩ := exists_member_of_spelled spells isPiece
      obtain ⟨first, rest, rfl, _⟩ := spelled.starts
      exact List.cons_ne_nil first rest
  refine ⟨entries, ?_, holds⟩
  rw [read?, dropByteOrderMark_writeDocument, lines, mapM_readStatement?_of_spelled spells, read]
  simp only [Option.bind_eq_bind, Option.map_some, Option.bind_some, gather_assignments, assigned]
  rfl

end

end Scaffold.Toml
