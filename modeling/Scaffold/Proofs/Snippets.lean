/-
This file proves what becomes of the shape of a snippet in a buffer. The block is
trimmed before the indentation to take off is measured, so the first line always
stands at the margin, wherever it stood in the snippet, and only the lines behind it
are sure to keep their shape. The first line keeps its place among them exactly if no
line of the snippet stands to its left and one of the others stands right below it.
-/

import Scaffold.Proofs.Indentation
import Scaffold.Proofs.Shift

namespace Scaffold.Text

/-! ### Lines with content under trimming -/

theorem allBlank_trimEnd (line : Text) : allBlank (trimEnd line) = allBlank line := by
  rw [Bool.eq_iff_iff, ← trimEnd_eq_nil_iff, trimEnd_trimEnd, trimEnd_eq_nil_iff]

theorem allBlank_append (front back : Text) :
    allBlank (front ++ back) = (allBlank front && allBlank back) :=
  List.all_append

theorem contentLines_append (front back : List Text) :
    contentLines (front ++ back) = contentLines front ++ contentLines back :=
  List.filter_append front back

theorem contentLines_cons_of_content {line : Text} (content : allBlank line = false)
    (rest : List Text) : contentLines (line :: rest) = line :: contentLines rest :=
  List.filter_cons_of_pos (by rw [content]; rfl)

theorem contentLines_cons_of_blank {line : Text} (blank : allBlank line = true)
    (rest : List Text) : contentLines (line :: rest) = contentLines rest :=
  List.filter_cons_of_neg (by rw [blank]; exact Bool.false_ne_true)

theorem contentLines_map (change : Text → Text)
    (same : ∀ line, allBlank (change line) = allBlank line) (cut : List Text) :
    contentLines (cut.map change) = (contentLines cut).map change := by
  rw [contentLines, List.filter_map, contentLines]
  exact congrArg _ (List.filter_congr fun line _ => congrArg (! ·) (same line))

theorem allBlank_unindent (width : Nat) (line : Text) :
    allBlank (unindent width line) = allBlank line := by
  by_cases spaced : Spaced width line
  · rw [← congrArg allBlank (unindent_of_spaced spaced), allBlank_append, allBlank_replicate,
      Bool.true_and]
  · rw [unindent_of_not_spaced spaced]

theorem notMem_trimStart {line : Text} (absent : '\n' ∉ line) : '\n' ∉ trimStart line :=
  fun member => absent ((List.dropWhile_suffix isBlank).subset member)

/-- Trimming the start of a line with content stays in front of the content. -/
theorem trimStart_append_of_content {line : Text} (content : allBlank line = false)
    (behind : Text) : trimStart (line ++ behind) = trimStart line ++ behind := by
  obtain ⟨blanks, back, rfl, blank, flush⟩ := exists_flush_of_content content
  rw [List.append_assoc, trimStart_append blank, trimStart_append blank,
    (flush.append _).trimStart, flush.trimStart]

theorem allBlank_trimStart {line : Text} (content : allBlank line = false) :
    allBlank (trimStart line) = false := by
  obtain ⟨blanks, back, rfl, blank, flush⟩ := exists_flush_of_content content
  rw [trimStart_append blank, flush.trimStart, flush.not_allBlank]

/-- Trimming the start of a text takes the blank lines off, and the indentation of the first line
that is not blank. -/
theorem contentLines_lines_trimStart {text first : Text} {rest : List Text}
    (cut : contentLines (lines text) = first :: rest) :
    contentLines (lines (trimStart text)) = trimStart first :: rest := by
  induction text using lineInduction with
  | last tail whole =>
    rw [lines_of_notMem whole] at cut
    cases blank : allBlank tail with
    | true =>
      rw [contentLines_cons_of_blank blank] at cut
      cases cut
    | false =>
      rw [contentLines_cons_of_content blank] at cut
      obtain ⟨rfl, rfl⟩ := List.cons.inj cut
      rw [lines_of_notMem (notMem_trimStart whole),
        contentLines_cons_of_content (allBlank_trimStart blank)]
  | line line behind whole inductionHypothesis =>
    rw [lines_append_newline, lines_of_notMem whole, List.singleton_append] at cut
    cases blank : allBlank line with
    | true =>
      rw [contentLines_cons_of_blank blank] at cut
      rw [trimStart_append blank]
      exact inductionHypothesis cut
    | false =>
      rw [contentLines_cons_of_content blank] at cut
      obtain ⟨rfl, rfl⟩ := List.cons.inj cut
      rw [trimStart_append_of_content blank, lines_append_newline,
        lines_of_notMem (notMem_trimStart whole), List.singleton_append,
        contentLines_cons_of_content (allBlank_trimStart blank)]

theorem map_trimEnd_contentLines_line (line : Text) :
    (contentLines [trimEnd line]).map trimEnd = (contentLines [line]).map trimEnd := by
  cases blank : allBlank line with
  | true =>
    rw [contentLines_cons_of_blank blank,
      contentLines_cons_of_blank ((allBlank_trimEnd line).trans blank)]
  | false =>
    rw [contentLines_cons_of_content blank,
      contentLines_cons_of_content ((allBlank_trimEnd line).trans blank), List.map_cons,
      List.map_cons, trimEnd_trimEnd]

/-- Trimming the end of a text takes blank lines off, and the white space at the end of the last
line that is not blank. -/
theorem map_trimEnd_contentLines (text : Text) :
    (contentLines (lines (trimEnd text))).map trimEnd =
      (contentLines (lines text)).map trimEnd := by
  induction text using lineInduction with
  | last tail whole =>
    rw [lines_of_notMem whole, lines_of_notMem (notMem_trimEnd whole),
      map_trimEnd_contentLines_line]
  | line line rest whole inductionHypothesis =>
    rw [lines_append_newline, lines_of_notMem whole, contentLines_append, List.map_append,
      ← inductionHypothesis]
    by_cases idle : trimEnd rest = []
    · -- nothing behind the line has content, so it is the last line that is left
      have blank : allBlank ('\n' :: rest) = true := by
        rw [allBlank_cons, (trimEnd_eq_nil_iff rest).mp idle]
        rfl
      rw [trimEnd_append_of_allBlank line blank, lines_of_notMem (notMem_trimEnd whole), idle,
        map_trimEnd_contentLines_line]
      exact (List.append_nil _).symm
    · have behind : trimEnd ('\n' :: rest) = '\n' :: trimEnd rest := by
        rw [trimEnd, if_neg fun both => idle both.1]
      rw [trimEnd_append line (by rw [behind]; exact List.cons_ne_nil _ _), behind,
        lines_append_newline, lines_of_notMem whole, contentLines_append, List.map_append]

theorem allBlank_of_contentLines_line {line : Text} (none : contentLines [line] = []) :
    allBlank line = true := by
  cases blank : allBlank line with
  | true => rfl
  | false =>
    rw [contentLines_cons_of_content blank] at none
    cases none

theorem allBlank_of_contentLines {text : Text} (none : contentLines (lines text) = []) :
    allBlank text = true := by
  induction text using lineInduction with
  | last tail whole =>
    rw [lines_of_notMem whole] at none
    exact allBlank_of_contentLines_line none
  | line line rest whole inductionHypothesis =>
    rw [lines_append_newline, lines_of_notMem whole, contentLines_append,
      List.append_eq_nil_iff] at none
    rw [allBlank_append, allBlank_of_contentLines_line none.1, allBlank_cons,
      inductionHypothesis none.2]
    rfl

theorem exists_contentLines {text : Text} (content : HasContent text) :
    ∃ first rest, contentLines (lines text) = first :: rest := by
  refine List.exists_cons_of_ne_nil fun none => ?_
  have blank := allBlank_of_contentLines none
  rw [(hasContent_iff text).mp content] at blank
  cases blank

/-- White space at the ends of lines with content does not count as indentation. -/
theorem smallestIndentation_congr {cut cut' : List Text}
    (content : ∀ line ∈ cut, allBlank line = false)
    (content' : ∀ line ∈ cut', allBlank line = false)
    (same : cut.map trimEnd = cut'.map trimEnd) :
    smallestIndentation cut = smallestIndentation cut' := by
  have counted (cut : List Text) (content : ∀ line ∈ cut, allBlank line = false) :
      cut.map indentation = (cut.map trimEnd).map indentation := by
    rw [List.map_map]
    exact List.map_congr_left fun line member => (indentation_trimEnd (content line member)).symm
  rw [smallestIndentation, counted cut content, same, ← counted cut' content', smallestIndentation]

/-! ### The lines of a snippet -/

section Block

variable {text first : Text} {rest : List Text} (cut : contentLines (lines text) = first :: rest)
include cut

theorem allBlank_of_mem_cut {line : Text} (member : line ∈ first :: rest) :
    allBlank line = false :=
  allBlank_of_mem_contentLines (cut ▸ member)

theorem hasContent_of_contentLines : HasContent text := by
  refine (hasContent_iff text).mpr (Bool.eq_false_iff.mpr fun blank => ?_)
  have start := contentLines_lines_trimStart cut
  rw [← List.append_nil text, trimStart_append blank] at start
  cases start

/-- The lines of a block are those of its text, but for the white space that trimming takes. -/
theorem map_trimEnd_contentLines_trim :
    (contentLines (lines (trim text))).map trimEnd = trim first :: rest.map trimEnd := by
  rw [trim, map_trimEnd_contentLines, contentLines_lines_trimStart cut, List.map_cons, trim]

theorem map_trimEnd_followers :
    (followers (lines (trim text))).map trimEnd = rest.map trimEnd := by
  obtain ⟨start, more, block, flush⟩ := exists_first_line (hasContent_of_contentLines cut)
  have trimmed := map_trimEnd_contentLines_trim cut
  rw [block, contentLines_cons_of_content flush.not_allBlank, List.map_cons] at trimmed
  rw [block]
  exact (List.cons.inj trimmed).2

/-- The shared indentation is the smallest one behind the first line that is not blank. -/
theorem sharedIndentation_trim :
    sharedIndentation (lines (trim text)) = smallestIndentation rest := by
  have behind (line : Text) (member : line ∈ rest) : allBlank line = false :=
    allBlank_of_mem_cut cut (List.mem_cons_of_mem first member)
  exact smallestIndentation_congr (fun line member => allBlank_of_mem_contentLines member) behind
    (map_trimEnd_followers cut)

/-- The lines with content that a block adds behind a lead of white space. -/
theorem contentLines_blockLines {lead : Text} (blank : allBlank lead = true) :
    contentLines (blockLines text lead) = (lead ++ trim first) ::
      rest.map fun line =>
        lead ++ unindent (smallestIndentation rest) (trimEnd line) := by
  have flush : Flush (trim first) :=
    flush_trim ((hasContent_iff first).mpr (allBlank_of_mem_cut cut List.mem_cons_self))
  have same (line : Text) :
      allBlank (lead ++ unindent (sharedIndentation (lines (trim text))) (trimEnd line)) =
        allBlank line := by
    rw [allBlank_append, blank, Bool.true_and, allBlank_unindent, allBlank_trimEnd]
  rw [blockLines, (hasContent_iff text).mp (hasContent_of_contentLines cut),
    if_neg Bool.false_ne_true, body, List.map_map, Function.comp_def, contentLines_map _ same,
    ← sharedIndentation_trim cut]
  have trimmed := congrArg
    (List.map (lead ++ unindent (sharedIndentation (lines (trim text))) ·))
    (map_trimEnd_contentLines_trim cut)
  rw [List.map_map, List.map_cons, List.map_map, unindent_of_flush flush] at trimmed
  exact trimmed

end Block

/-! ### Their indentation -/

/-- The indentation of every line with content is made of spaces. -/
def SpaceIndented (text : Text) : Prop :=
  ∀ line ∈ contentLines (lines text), Spaced (indentation line) line

instance (text : Text) : Decidable (SpaceIndented text) :=
  inferInstanceAs (Decidable (∀ line ∈ contentLines (lines text), _))

instance (width : Nat) (numbers : List Nat) : Decidable (Smallest width numbers) :=
  inferInstanceAs (Decidable (_ ∧ _))

theorem Smallest.unique {one other : Nat} {numbers : List Nat} (smallest : Smallest one numbers)
    (smallest' : Smallest other numbers) : one = other :=
  Nat.le_antisymm (smallest.2 other smallest'.1) (smallest'.2 one smallest.1)

/-- Lines that all move by so many columns keep their shape. -/
theorem keepShape_of_shift {pairs : List (Text × Text)} (left right : Nat)
    (shift : ∀ pair ∈ pairs, indentation pair.2 + left = indentation pair.1 + right) :
    KeepShape pairs := by
  intro one inPairs other inPairs'
  have moved := shift one inPairs
  have moved' := shift other inPairs'
  omega

theorem trim_unindent (width : Nat) (line : Text) : trim (unindent width line) = trim line := by
  by_cases spaced : Spaced width line
  · rw [← congrArg trim (unindent_of_spaced spaced), trim, trim,
      trimStart_append (allBlank_replicate width)]
  · rw [unindent_of_not_spaced spaced]

theorem trim_trimEnd (line : Text) : trim (trimEnd line) = trim line := by
  cases content : allBlank line with
  | true => rw [trim_of_allBlank content, trim_of_allBlank ((allBlank_trimEnd line).trans content)]
  | false =>
    obtain ⟨blanks, back, rfl, blank, flush⟩ := exists_flush_of_content content
    rw [trimEnd_append blanks flush.trimEnd_ne_nil, trim, trim, trimStart_append blank,
      trimStart_append blank, flush.trimStart, flush.trimEnd.trimStart, trimEnd_trimEnd]

section Line

variable {line : Text} (content : allBlank line = false)
include content

variable {lead : Text} (blank : allBlank lead = true)
include blank

theorem indentation_kept {width : Nat} (spaced : Spaced width line) :
    indentation (lead ++ unindent width (trimEnd line)) + width =
      indentation line + lead.length := by
  have lost := (stripped_unindent width line).indentation_of_spaced content spaced
  rw [indentation_append blank]
  omega

theorem indentation_first : indentation (lead ++ trim line) = lead.length := by
  rw [indentation_append blank, (flush_trim ((hasContent_iff line).mpr content)).indentation,
    Nat.add_zero]

end Line

section Shape

variable {text first lead : Text} {rest : List Text}
  (cut : contentLines (lines text) = first :: rest)
include cut

/-- A block adds the lines of its text that have content, but for the white space around them. -/
theorem map_trim_contentLines_blockLines (blank : allBlank lead = true) :
    (contentLines (blockLines text lead)).map trim = (first :: rest).map trim := by
  have content (line : Text) (member : line ∈ first :: rest) : allBlank line = false :=
    allBlank_of_mem_cut cut member
  have behindLead (line : Text) : trim (lead ++ line) = trim line :=
    congrArg trimEnd (trimStart_append blank line)
  have flush : Flush (trim first) :=
    flush_trim ((hasContent_iff first).mpr (content first List.mem_cons_self))
  have trimmed : trim (trim first) = trim first := by
    rw [trim, flush.trimStart, trim, trimEnd_trimEnd]
  rw [contentLines_blockLines cut blank, List.map_cons, List.map_cons, behindLead, trimmed,
    List.map_map]
  refine congrArg (trim first :: ·) (List.map_congr_left fun line _ => ?_)
  rw [Function.comp_apply, behindLead, trim_unindent, trim_trimEnd]

variable (spaces : SpaceIndented text) (blank : allBlank lead = true)
include spaces blank

/-- Every line with content behind the first moves by the lead and the smallest indentation. -/
theorem indentation_follower {line : Text} (member : line ∈ rest) :
    indentation (lead ++ unindent (smallestIndentation rest) (trimEnd line)) +
        smallestIndentation rest =
      indentation line + lead.length := by
  have inLines : line ∈ first :: rest := List.mem_cons_of_mem first member
  have least : smallestIndentation rest ≤ indentation line :=
    List.min?_getD_le_of_mem (List.mem_map_of_mem member)
  exact indentation_kept (allBlank_of_mem_cut cut inLines) blank
    ((spaces line (cut ▸ inLines)).mono least)

theorem keepShape_rest :
    KeepShape (rest.zip ((contentLines (blockLines text lead)).drop 1)) := by
  rw [contentLines_blockLines cut blank, List.drop_one, List.tail_cons,
    ← List.map_prod_left_eq_zip]
  exact keepShape_of_shift _ _ (List.forall_mem_map.mpr fun line member =>
    indentation_follower cut spaces blank member)

theorem keepShape_blockLines_iff :
    KeepShape ((first :: rest).zip (contentLines (blockLines text lead))) ↔
      rest = [] ∨ Smallest (indentation first) (rest.map indentation) := by
  have atMargin : indentation (lead ++ trim first) = lead.length :=
    indentation_first (allBlank_of_mem_cut cut List.mem_cons_self) blank
  have smallest (some : rest ≠ []) :
      Smallest (smallestIndentation rest) (rest.map indentation) :=
    smallest_smallestIndentation some
  rw [contentLines_blockLines cut blank, List.zip_cons_cons, ← List.map_prod_left_eq_zip]
  constructor
  · intro keep
    refine or_iff_not_imp_left.mpr fun some => ?_
    obtain ⟨next, later, rfl⟩ := List.exists_cons_of_ne_nil some
    -- The first line and the one behind it stand as they did, and the latter lost the smallest.
    have moved := indentation_follower cut spaces blank (List.mem_cons_self (l := later))
    have same := keep _ List.mem_cons_self _ (List.mem_cons_of_mem _ List.mem_cons_self)
    simp only [atMargin] at same
    have equal : indentation first = smallestIndentation (next :: later) := by
      omega
    rw [equal]
    exact smallest some
  · intro place
    have lost (some : rest ≠ []) : smallestIndentation rest = indentation first :=
      (smallest some).unique (place.resolve_left some)
    refine keepShape_of_shift (indentation first) lead.length ?_
    refine List.forall_mem_cons.mpr ⟨?_, List.forall_mem_map.mpr fun line member => ?_⟩
    · rw [atMargin, Nat.add_comm]
    · rw [← lost (List.ne_nil_of_mem member)]
      exact indentation_follower cut spaces blank member

end Shape

end Scaffold.Text

namespace Scaffold.Code.Buffer

open Text

/-- A snippet that is indented with spaces adds its lines with content in their order. The first one
lands at the margin, and those behind it keep their shape. All of them do exactly if the first one is
alone, or had the smallest indentation of the others. -/
theorem snippet_keepShape_iff (buffer : Buffer) (text : Text) (content : HasContent text)
    (spaces : SpaceIndented text) :
    ∃ first rest added,
      contentLines (lines text) = first :: rest ∧
      (buffer.snippet text).text = buffer.text ++ terminated added ∧
      (∀ line ∈ added, '\n' ∉ line) ∧
      (contentLines added).map trim = (first :: rest).map trim ∧
      (contentLines added).head? = some (buffer.margin ++ trim first) ∧
      KeepShape (rest.zip ((contentLines added).drop 1)) ∧
      (KeepShape ((first :: rest).zip (contentLines added)) ↔
        rest = [] ∨ Smallest (indentation first) (rest.map indentation)) := by
  obtain ⟨first, rest, cut⟩ := exists_contentLines content
  obtain ⟨whole, blank⟩ : BlankLine buffer.margin :=
    buffer.indent.blankLine_repeated buffer.level
  refine ⟨first, rest, blockLines text buffer.margin, cut, ?_,
    notMem_of_mem_blockLines text whole, ?_, ?_, keepShape_rest cut spaces blank,
    keepShape_blockLines_iff cut spaces blank⟩
  · rw [snippet, Move.reindented_eq_raw, block_eq_terminated]
    rfl
  · exact map_trim_contentLines_blockLines cut blank
  · rw [contentLines_blockLines cut blank, List.head?_cons]

/-- A snippet whose first line stands below the opening quote, at the indentation of the one behind
it, keeps its shape at any margin. -/
theorem snippet_keepShape_iff_tab :
    let buffer : Buffer := { indent := .tab, level := 2, text := "\tx\n".toList }
    let text : Text := "\n    a\n \n      b\n    c  \n".toList
    HasContent text ∧ SpaceIndented text ∧
      ∃ added, (buffer.snippet text).text = buffer.text ++ terminated added ∧
        KeepShape ((contentLines (lines text)).zip (contentLines added)) := by
  intro buffer text
  have content : HasContent text := by decide
  have spaces : SpaceIndented text := by decide
  obtain ⟨first, rest, added, cut, grown, _, _, _, _, keeps⟩ :=
    snippet_keepShape_iff buffer text content spaces
  have lines : contentLines (lines text) =
      ["    a".toList, "      b".toList, "    c  ".toList] := by decide
  obtain ⟨rfl, rfl⟩ := List.cons.inj (cut.symm.trans lines)
  exact ⟨content, spaces, added, grown, cut ▸ keeps.mpr (Or.inr (by decide))⟩

/-- The first line does not always keep its place, even if it stands below the opening quote. -/
theorem not_forall_snippet_keepShape :
    ¬ ∀ (buffer : Buffer) (text : Text),
      (∃ blanks back, text = blanks ++ '\n' :: back ∧ allBlank blanks = true ∧ HasContent back) →
      SpaceIndented text →
      ∀ added, (∀ line ∈ added, '\n' ∉ line) →
        (buffer.snippet text).text = buffer.text ++ terminated added →
        KeepShape ((contentLines (lines text)).zip (contentLines added)) := by
  intro all
  have keeps := all {} "\n  a\n    b".toList
    ⟨[], "  a\n    b".toList, by decide, by decide, by decide⟩ (by decide) [['a'], ['b']]
    (by decide) (by decide)
  exact absurd keeps (by decide)

end Scaffold.Code.Buffer
