/-
This file puts a comment in front of a document. The reader passes over it, so that
the same entry is rejected for the same reason. The search for the entry's name does
not know comments: it only passes over one that spells no header of the entry, and
otherwise it may end in the comment.
-/

import Scaffold.Proofs.Labels

namespace Scaffold

/-- A line of comment in front of a document. -/
def commentLine (remark : Text) : Text :=
  '#' :: remark ++ ['\n']

/-! ### Reading behind a comment -/

namespace Toml

theorem readComment_line {remark : Text} (printable : ∀ c ∈ remark, isPrintable c = true)
    (rest : Text) : readComment (remark ++ '\n' :: rest) = (.comment, '\n' :: rest) := by
  have behind : (remark ++ '\n' :: rest).dropWhile isPrintable = '\n' :: rest := by
    rw [List.dropWhile_append_of_pos printable]
    rfl
  rw [readComment, behind]
  rfl

/-- A comment and the end of its line are two tokens. -/
theorem exists_tokens_commentLine {remark : Text}
    (printable : ∀ c ∈ remark, isPrintable c = true) (text : Text) :
    ∃ comment lineEnd : Token, comment.kind = .comment ∧ lineEnd.kind = .lineEnd ∧
      tokens (commentLine remark ++ text) = comment :: lineEnd :: tokens text := by
  have read : readToken '#' (remark ++ '\n' :: text) = (.comment, '\n' :: text) :=
    readComment_line printable text
  have line : commentLine remark ++ text = '#' :: (remark ++ '\n' :: text) :=
    congrArg ('#' :: ·) (List.append_assoc remark ['\n'] text)
  rw [line, tokens, read, tokens]
  exact ⟨_, _, rfl, rfl, rfl⟩

/-- A comment that is alone on its line says nothing. -/
theorem statementLines_comment {comment lineEnd : Token} (isComment : comment.kind = .comment)
    (isLineEnd : lineEnd.kind = .lineEnd) (rest : List Token) :
    statementLines (comment :: lineEnd :: rest) = statementLines rest := by
  have cut : splitOutside Token.turn (·.kind = .lineEnd) 0 (comment :: lineEnd :: rest) =
      [comment] :: splitOutside Token.turn (·.kind = .lineEnd) 0 rest := by
    simp [splitOutside, Token.turn, Turn.depth, isComment, isLineEnd]
  have trimmed : trimTokens Token.isBlank
      (fun token => token.isBlank ∨ token.kind = .comment) [comment] = [] := by
    simp [trimTokens, Token.isBlank, isComment]
  rw [statementLines, cut, List.map_cons, trimmed]
  rfl

/-- The reader passes over a comment. -/
theorem read?_commentLine {remark text : Text} (printable : ∀ c ∈ remark, isPrintable c = true)
    (unmarked : text.head? ≠ some '\ufeff') :
    read? (commentLine remark ++ text) = read? text := by
  have whole : dropByteOrderMark text = text := by
    unfold dropByteOrderMark
    split
    · exact absurd rfl unmarked
    · rfl
  have line : dropByteOrderMark (commentLine remark ++ text) = commentLine remark ++ text := rfl
  obtain ⟨comment, lineEnd, isComment, isLineEnd, cut⟩ := exists_tokens_commentLine printable text
  rw [read?, line, cut, statementLines_comment isComment isLineEnd, read?, whole]

end Toml

/-! ### Searching behind a comment -/

/-- Of some patterns, the first one that occurs at all in two texts put together starts in the first
text. -/
def Text.FirstStartsIn (front back : Text) : List Text → Prop
  | [] => False
  | pattern :: rest =>
    StartsIn pattern front back ∨ (¬ pattern <:+: front ++ back ∧ FirstStartsIn front back rest)

namespace Catalog

/-- The header that spells a name of a table with a given text around it. -/
def headerText (table name around : Text) : Text :=
  '[' :: table ++ '.' :: around ++ name ++ around ++ [']']

/-- The search for a name behind a comment ends in the comment. -/
def Misleads (remark text table name : Text) : Prop :=
  Text.FirstStartsIn (commentLine remark) text (enclosures.map (headerText table name))

/-- The same stretch of a text, with more text in front of it. -/
def Region.shift (distance : Nat) (region : Region) : Region :=
  ⟨distance + region.offset, region.length⟩

/-- The opening of a header that starts in front of a line end is all in front of it. -/
theorem byteLength_lt_of_prefix {opening rest back : Text} (inLine : '\n' ∉ opening)
    (ended : '\n' ∈ rest) (occurs : opening <+: rest ++ back) :
    Text.byteLength opening < Text.byteLength rest := by
  rcases List.prefix_or_prefix_of_prefix occurs (List.prefix_append rest back) with short | long
  · obtain ⟨more, rfl⟩ := short
    have nonempty : more ≠ [] := by
      rintro rfl
      rw [List.append_nil] at ended
      exact inLine ended
    rw [Text.byteLength_append]
    exact Nat.lt_add_of_pos_right (Text.byteLength_pos nonempty)
  · exact absurd (long.subset ended) inLine

section

variable {table name around front : Text}

theorem locateHeader?_of_not_startsIn {back : Text}
    (absent : ¬ Text.StartsIn (headerText table name around) front back) :
    locateHeader? (front ++ back) table name around =
      (locateHeader? back table name around).map (Text.byteLength front + ·) := by
  have found := Text.find?_append_of_not_startsIn absent
  rw [headerText] at found
  rw [locateHeader?, locateHeader?, found, Option.map_map, Option.map_map]
  exact congrArg (Option.map · _) (funext fun offset => Nat.add_assoc _ _ _)

theorem exists_locateHeader?_of_startsIn {back : Text} (ended : front.getLast? = some '\n')
    (tableInLine : '\n' ∉ table) (aroundInLine : '\n' ∉ around)
    (present : Text.StartsIn (headerText table name around) front back) :
    ∃ place < Text.byteLength front,
      locateHeader? (front ++ back) table name around = some place := by
  obtain ⟨before, rest, split, nonempty, occurs, found⟩ :=
    Text.exists_find?_append_of_startsIn present
  rw [headerText] at found occurs
  refine ⟨_, ?_, by rw [locateHeader?, found]; rfl⟩
  have openingInLine : '\n' ∉ '[' :: table ++ '.' :: around := by
    simp [tableInLine, aroundInLine]
  have restEnded : '\n' ∈ rest := by
    rw [split, List.getLast?_append_of_ne_nil _ nonempty] at ended
    exact List.mem_of_getLast? ended
  have short := byteLength_lt_of_prefix openingInLine restEnded
    (List.IsPrefix.trans ⟨name ++ around ++ [']'], by simp only [List.append_assoc]⟩ occurs)
  rw [split, Text.byteLength_append before]
  exact Nat.add_lt_add_left short _

theorem locateHeader?_eq_none_iff {source : Text} :
    locateHeader? source table name around = none ↔ ¬ headerText table name around <:+: source := by
  rw [locateHeader?, Option.map_eq_none_iff, Text.find?_eq_none_iff, headerText]

/-- The headers are tried one after the other, and one that occurs nowhere leaves no trace. -/
theorem findSome?_locateHeader? {back : Text} (ended : front.getLast? = some '\n')
    (tableInLine : '\n' ∉ table) (arounds : List Text) (inLine : ∀ around ∈ arounds, '\n' ∉ around) :
    (Text.FirstStartsIn front back (arounds.map (headerText table name)) →
      ∃ place < Text.byteLength front,
        arounds.findSome? (locateHeader? (front ++ back) table name) = some place) ∧
    (¬ Text.FirstStartsIn front back (arounds.map (headerText table name)) →
      arounds.findSome? (locateHeader? (front ++ back) table name) =
        (arounds.findSome? (locateHeader? back table name)).map (Text.byteLength front + ·)) := by
  induction arounds with
  | nil => exact ⟨False.elim, fun _ => rfl⟩
  | cons around rest inductionHypothesis =>
    obtain ⟨aroundInLine, restInLine⟩ := List.forall_mem_cons.mp inLine
    obtain ⟨drawn, undrawn⟩ := inductionHypothesis restInLine
    rw [List.map_cons, Text.FirstStartsIn, List.findSome?_cons, List.findSome?_cons]
    by_cases present : Text.StartsIn (headerText table name around) front back
    · obtain ⟨place, early, found⟩ :=
        exists_locateHeader?_of_startsIn ended tableInLine aroundInLine present
      rw [found]
      exact ⟨fun _ => ⟨place, early, rfl⟩, fun absent => absurd (Or.inl present) absent⟩
    · rw [or_iff_right present, ← locateHeader?_eq_none_iff, locateHeader?_of_not_startsIn present]
      cases locateHeader? back table name around with
      | some place => exact ⟨fun both => absurd both.1 (Option.some_ne_none _), fun _ => rfl⟩
      | none =>
        exact ⟨fun both => drawn both.2, fun absent => undrawn fun later => absent ⟨rfl, later⟩⟩

theorem locateLine?_add (distance offset : Nat) (inTable : Bool) (lines : List Text) :
    locateLine? table name inTable (distance + offset) lines =
      (locateLine? table name inTable offset lines).map (distance + ·) := by
  induction lines generalizing inTable offset with
  | nil => rfl
  | cons line rest inductionHypothesis =>
    rw [locateLine?, locateLine?, Nat.add_assoc, inductionHypothesis, inductionHypothesis]
    split
    · rfl
    · split
      · rw [Option.map_some, Nat.add_assoc]
      · rfl

end

/-- A comment neither starts a table nor assigns to a name, as no table has started. -/
theorem locateLine?_commentLine {remark : Text} (inLine : '\n' ∉ remark) (table name text : Text) :
    locateLine? table name false 0 (Text.wholeLines (commentLine remark ++ text)) =
      (locateLine? table name false 0 (Text.wholeLines text)).map
        (Text.byteLength (commentLine remark) + ·) := by
  have cut : Text.wholeLines (commentLine remark ++ text) =
      commentLine remark :: Text.wholeLines text := by
    have whole : '\n' ∉ '#' :: remark := by simp [inLine]
    rw [commentLine, List.append_assoc]
    exact Text.wholeLines_append_newline whole text
  have noHeader : (Text.trimStart (commentLine remark)).head? ≠ some '[' := by
    rw [commentLine, Text.trimStart, List.cons_append, List.dropWhile_cons_of_neg (by decide),
      List.head?_cons]
    decide
  have outside : inTableBehind table false [commentLine remark] = false := by
    rw [inTableBehind, List.foldl_cons, List.foldl_nil, if_neg noHeader]
  have passed : ¬ AssignsIn table name false [] (commentLine remark) :=
    fun assigned => Bool.false_ne_true assigned.1
  rw [cut, locateLine?_cons passed, outside, Nat.zero_add, ← locateLine?_add, Nat.add_zero]

theorem headers_commentLine (remark text name : Text) (table : Table) :
    (Misleads remark text table.name name →
      ∃ place < Text.byteLength (commentLine remark),
        enclosures.findSome? (locateHeader? (commentLine remark ++ text) table.name name) =
          some place) ∧
    (¬ Misleads remark text table.name name →
      enclosures.findSome? (locateHeader? (commentLine remark ++ text) table.name name) =
        (enclosures.findSome? (locateHeader? text table.name name)).map
          (Text.byteLength (commentLine remark) + ·)) :=
  findSome?_locateHeader? List.getLast?_concat (by cases table <;> decide) enclosures (by decide)

/-- A comment that spells no header of the name only moves the place. -/
theorem locate?_of_not_misleads {remark text name : Text} {table : Table} (inLine : '\n' ∉ remark)
    (silent : ¬ Misleads remark text table.name name) :
    locate? (commentLine remark ++ text) table.name name =
      (locate? text table.name name).map
        (.shift (Text.byteLength (commentLine remark))) := by
  rw [locate?_eq, locate?_eq, locateLine?_commentLine inLine,
    (headers_commentLine remark text name table).2 silent, ← Option.map_or, Option.map_map,
    Option.map_map]
  rfl

/-- A comment that misleads the search is where it ends. -/
theorem exists_locate?_of_misleads {remark text name : Text} {table : Table}
    (misled : Misleads remark text table.name name) :
    ∃ region, locate? (commentLine remark ++ text) table.name name = some region ∧
      region.offset < Text.byteLength (commentLine remark) := by
  obtain ⟨place, early, found⟩ := (headers_commentLine remark text name table).1 misled
  exact ⟨_, by rw [locate?_eq, found]; rfl, early⟩

/-- Headers start with a bracket, so a comment without one misleads no search. -/
theorem not_misleads_of_notMem {remark : Text} (plain : '[' ∉ remark) (text table name : Text) :
    ¬ Misleads remark text table name := by
  have absent (around : Text) :
      ¬ Text.StartsIn (headerText table name around) (commentLine remark) text := by
    rintro ⟨before, rest, split, nonempty, occurs⟩
    obtain ⟨c, rest, rfl⟩ := List.exists_cons_of_ne_nil nonempty
    have bracket : '[' = c := (List.cons_prefix_cons.mp occurs).1
    have member : '[' ∈ commentLine remark := by
      rw [split, bracket]
      exact List.mem_append_right before List.mem_cons_self
    simp [commentLine, plain] at member
  rw [Misleads]
  induction enclosures with
  | nil => exact id
  | cons around rest inductionHypothesis =>
    exact fun first => first.elim (absent around) fun later => inductionHypothesis later.2

/-! ### Labels behind a comment -/

/-- The same source with a comment in front of it. -/
def Source.behind (source : Source) (remark : Text) : Source :=
  { source with text := commentLine remark ++ source.text }

/-- The same label on a text with more text in front of it. -/
def Label.shift (distance : Nat) (label : Label) : Label :=
  ⟨label.text, label.place.shift distance⟩

/-- An error without the places that it shows. -/
def Error.unplaced : Error → Error
  | .malformed => .malformed
  | .unfit fault _ => .unfit fault ⟨0, 0⟩
  | .missingPrimaryType name _ cause => .missingPrimaryType name none cause
  | .duplicateScalar name _ _ => .duplicateScalar name none none
  | .invalidName name reason _ => .invalidName name reason none

theorem labelAt_map_shift (distance : Nat) (text : String) (place : Option Region) :
    labelAt text (place.map (.shift distance)) = (labelAt text place).map (.shift distance) := by
  cases place <;> rfl

theorem labels_behind_iff {source : Source} {remark : Text} (inLine : '\n' ∉ remark)
    (entry : Entry) (fault : EntryFault) :
    ((source.behind remark).entryError entry fault).labels =
        (source.entryError entry fault).labels.map
          (.shift (Text.byteLength (commentLine remark))) ↔
      ∀ caption ∈ fault.captions entry,
        ¬ Misleads remark source.text caption.2.name entry.name := by
  rw [Source.labels_entryError, Source.labels_entryError]
  constructor
  · intro shifted caption member misled
    obtain ⟨region, found, early⟩ := exists_locate?_of_misleads misled
    have drawn : ⟨caption.1.toList, region⟩ ∈
        ((source.behind remark).entryError entry fault).labels := by
      rw [Source.labels_entryError]
      exact List.mem_flatMap.mpr ⟨caption, member, mem_labelAt_iff.mpr ⟨rfl, found⟩⟩
    rw [Source.labels_entryError, shifted] at drawn
    -- A label that has moved stands behind the comment.
    obtain ⟨label, _, moved⟩ := List.mem_map.mp drawn
    have offset : region.offset = Text.byteLength (commentLine remark) + label.place.offset :=
      congrArg (fun label => label.place.offset) moved.symm
    exact absurd early (offset ▸ Nat.not_lt_of_ge (Nat.le_add_right _ _))
  · intro silent
    rw [List.map_flatMap]
    refine List.flatMap_congr fun caption member => ?_
    rw [← labelAt_map_shift]
    exact congrArg (labelAt caption.1) (locate?_of_not_misleads inLine (silent caption member))

/-- Behind a comment the same entry is rejected for the same reason. Every label keeps its length and
moves by the length of the comment, exactly if the comment draws none of the searches for the entry
to a header that it spells. -/
theorem labels_move_iff (source : Source) (remark : Text) (error : Error) (name : Text)
    (printable : ∀ c ∈ remark, Toml.isPrintable c = true)
    (unmarked : source.text.head? ≠ some '\ufeff')
    (rejected : source.read.2 = .error ⟨source, error⟩) (about : error.subject? = some name) :
    ∃ (entry : Entry) (fault : EntryFault) (moved : Error),
      entry.name = name ∧ error = source.entryError entry fault ∧
      (source.behind remark).read.2 = .error ⟨source.behind remark, moved⟩ ∧
      moved.unplaced = error.unplaced ∧
      (moved.labels = error.labels.map (.shift (Text.byteLength (commentLine remark))) ↔
        ∀ caption ∈ fault.captions entry,
          ¬ Misleads remark source.text caption.2.name entry.name) := by
  have inLine : '\n' ∉ remark := fun member =>
    absurd (printable '\n' member) (by decide)
  obtain ⟨declarations, events, entry, fault, declared, stopped, named, same⟩ :=
    exists_fault_of_subject? rejected about
  have error_eq : error = source.entryError entry fault := congrArg Diagnostic.error same
  have redeclared : (source.behind remark).declarations = .ok declarations := by
    rw [Source.declarations_eq_ok_iff] at declared ⊢
    rw [Source.behind, Toml.read?_commentLine printable unmarked]
    exact declared
  refine ⟨entry, fault, (source.behind remark).entryError entry fault, named, error_eq, ?_, ?_, ?_⟩
  · rw [read_of_declared redeclared, Source.assemble, stopped]
    rfl
  · rw [error_eq]
    cases fault <;> rfl
  · rw [error_eq]
    exact labels_behind_iff inLine entry fault

/-- A comment in front of an enumeration whose key is taken, where both labels move. -/
theorem labels_move_iff_taken :
    let source : Source :=
      ⟨"[scalars]\na=\x7bprimary_type='x'\x7d\n[enums.a]\ndefault=''".toList, []⟩
    let remark : Text := " schön".toList
    let error : Error := .duplicateScalar ['a'] (some ⟨10, 1⟩) (some ⟨38, 1⟩)
    source.read.2 = .error ⟨source, error⟩ ∧
      ∃ moved, (source.behind remark).read.2 = .error ⟨source.behind remark, moved⟩ ∧
        moved.labels =
          [⟨"first declared here".toList, ⟨19, 1⟩⟩, ⟨"declared again here".toList, ⟨47, 1⟩⟩] := by
  intro source remark error
  have rejected : source.read.2 = .error ⟨source, error⟩ := by with_unfolding_all rfl
  obtain ⟨entry, fault, moved, _, _, read, _, labels⟩ :=
    labels_move_iff source remark error ['a'] (List.all_eq_true.mp rfl) (by decide) rejected rfl
  refine ⟨rejected, moved, read, labels.mpr fun caption _ => ?_⟩
  exact not_misleads_of_notMem (by decide) _ _ _

/-- A comment that spells the header of the entry that it is about, and so gets the label. -/
theorem label_drawn_by_remark :
    let source : Source := ⟨"[scalars.int]\npassed_by_reference=true".toList, []⟩
    let remark : Text := " [scalars.int] has no primary type".toList
    let error (place : Region) : Error :=
      .missingPrimaryType "int".toList (some place) .missingPrimaryType
    (∀ c ∈ remark, Toml.isPrintable c = true) ∧ source.text.head? ≠ some '\ufeff' ∧
      source.read.2 = .error ⟨source, error ⟨9, 3⟩⟩ ∧
      (source.behind remark).read.2 = .error ⟨source.behind remark, error ⟨11, 3⟩⟩ ∧
      (error ⟨11, 3⟩).labels ≠
        (error ⟨9, 3⟩).labels.map (.shift (Text.byteLength (commentLine remark))) := by
  intro source remark error
  refine ⟨List.all_eq_true.mp rfl, by decide, ?_, ?_, by decide⟩
  · with_unfolding_all rfl
  · with_unfolding_all rfl

end Catalog

end Scaffold
