/-
This file proves what reindenting does to the indentation of a block. Every line gets
the lead, and a line that starts with as many spaces as the shared indentation loses
these. So a block keeps its shape behind the first line exactly if the lines there,
blank ones aside, all lose the spaces or none of them does.
-/

import Mathlib.Data.List.Zip
import Scaffold.Text.Reindent

namespace Scaffold.Text

/-! ### Indentation of a line -/

/-- The line starts with so many spaces. -/
def Spaced (width : Nat) (line : Text) : Prop :=
  List.replicate width ' ' <+: line

instance (width : Nat) (line : Text) : Decidable (Spaced width line) :=
  inferInstanceAs (Decidable (_ <+: _))

theorem Spaced.mono {small large : Nat} {line : Text} (spaced : Spaced large line)
    (le : small ≤ large) : Spaced small line := by
  refine List.IsPrefix.trans ⟨List.replicate (large - small) ' ', ?_⟩ spaced
  rw [List.replicate_append_replicate, Nat.add_sub_cancel' le]

/-- A line with content is white space, and behind it a text at column zero. -/
theorem exists_flush_of_content {line : Text} (content : allBlank line = false) :
    ∃ blanks back, line = blanks ++ back ∧ allBlank blanks = true ∧ Flush back := by
  refine ⟨line.takeWhile isBlank, line.dropWhile isBlank,
    List.takeWhile_append_dropWhile.symm, List.all_takeWhile, ?_⟩
  cases behind : line.dropWhile isBlank with
  | nil =>
    have blank : allBlank line = true := by
      rw [allBlank, ← List.takeWhile_append_dropWhile (p := isBlank) (l := line), behind,
        List.append_nil]
      exact List.all_takeWhile
    exact absurd (blank.symm.trans content) (by decide)
  | cons c rest =>
    have nonempty : line.dropWhile isBlank ≠ [] := behind ▸ List.cons_ne_nil c rest
    have head := List.head_dropWhile_not isBlank nonempty
    simp only [behind, List.head_cons] at head
    exact congrArg some head

theorem trimStart_append {blanks : Text} (blank : allBlank blanks = true) (back : Text) :
    trimStart (blanks ++ back) = trimStart back :=
  List.dropWhile_append_of_pos (List.all_eq_true.mp blank)

theorem trim_of_allBlank {text : Text} (blank : allBlank text = true) : trim text = [] := by
  rw [trim, ← List.append_nil text, trimStart_append blank]
  rfl

theorem indentation_append {blanks : Text} (blank : allBlank blanks = true) (back : Text) :
    indentation (blanks ++ back) = blanks.length + indentation back := by
  rw [indentation, List.takeWhile_append_of_pos (List.all_eq_true.mp blank), List.length_append,
    indentation]

theorem indentation_of_flush {blanks back : Text} (blank : allBlank blanks = true)
    (flush : Flush back) : indentation (blanks ++ back) = blanks.length := by
  rw [indentation_append blank, flush.indentation, Nat.add_zero]

section Content

variable {line : Text} (content : allBlank line = false)
include content

theorem indentation_trimEnd : indentation (trimEnd line) = indentation line := by
  obtain ⟨blanks, back, rfl, blank, flush⟩ := exists_flush_of_content content
  rw [trimEnd_append blanks flush.trimEnd_ne_nil, indentation_of_flush blank flush.trimEnd,
    indentation_of_flush blank flush]

/-- White space at the start of a line stands in front of its content, so trimming the end leaves
it. -/
theorem isPrefix_trimEnd_iff {blanks : Text} (blank : allBlank blanks = true) :
    blanks <+: trimEnd line ↔ blanks <+: line := by
  refine ⟨fun leads => leads.trans (trimEnd_isPrefix line), fun leads => ?_⟩
  rcases List.prefix_or_prefix_of_prefix leads (trimEnd_isPrefix line) with short | long
  · exact short
  · have blankLine : allBlank (trimEnd line) = true :=
      List.all_eq_true.mpr fun c member =>
        List.all_eq_true.mp blank c (long.subset member)
    rw [← trimEnd_eq_nil_iff, trimEnd_trimEnd, trimEnd_eq_nil_iff, content] at blankLine
    cases blankLine

theorem spaced_trimEnd_iff (width : Nat) : Spaced width (trimEnd line) ↔ Spaced width line :=
  isPrefix_trimEnd_iff content (allBlank_replicate width)

end Content

/-! ### What is left of a line -/

/-- What is left of a line that may lose so many spaces: the line without the white space at its end,
and without the spaces where it starts with them. A blank line is lost. -/
structure Stripped (width : Nat) (line kept : Text) : Prop where
  spaced : allBlank line = false → Spaced width line →
    List.replicate width ' ' ++ kept = trimEnd line
  other : allBlank line = false → ¬ Spaced width line → kept = trimEnd line
  blank : allBlank line = true → kept = []

theorem unindent_of_spaced {width : Nat} {line : Text} (spaced : Spaced width line) :
    List.replicate width ' ' ++ unindent width line = line := by
  obtain ⟨rest, rfl⟩ := spaced
  rw [unindent, if_pos (List.prefix_append _ _)]
  exact congrArg (_ ++ ·) (List.drop_left' List.length_replicate)

theorem unindent_of_not_spaced {width : Nat} {line : Text} (other : ¬ Spaced width line) :
    unindent width line = line :=
  if_neg other

theorem stripped_unindent (width : Nat) (line : Text) :
    Stripped width line (unindent width (trimEnd line)) where
  spaced content spaced := unindent_of_spaced ((spaced_trimEnd_iff content width).mpr spaced)
  other content other := unindent_of_not_spaced (mt (spaced_trimEnd_iff content width).mp other)
  blank blank := by
    rw [(trimEnd_eq_nil_iff line).mpr blank, unindent]
    split
    · exact List.drop_nil
    · rfl

/-- A line at column zero loses nothing at its start. -/
theorem unindent_of_flush {line : Text} (flush : Flush line) (width : Nat) :
    unindent width line = line := by
  cases width with
  | zero => exact unindent_zero line
  | succ width =>
    refine unindent_of_not_spaced fun spaced => ?_
    obtain ⟨c, rest, rfl, content⟩ := flush.exists_cons
    have space : ' ' = c := (List.cons_prefix_cons.mp spaced).1
    rw [← space] at content
    exact absurd content (by decide)

namespace Stripped

variable {width : Nat} {line kept : Text} (stripped : Stripped width line kept)
  (content : allBlank line = false)
include stripped content

theorem indentation_of_spaced (spaced : Spaced width line) :
    width + indentation kept = indentation line := by
  rw [← indentation_trimEnd content, ← stripped.spaced content spaced,
    indentation_append (allBlank_replicate width), List.length_replicate]

theorem indentation_of_not_spaced (other : ¬ Spaced width line) :
    indentation kept = indentation line := by
  rw [stripped.other content other, indentation_trimEnd content]

end Stripped

/-! ### The shape of some lines -/

/-- Lines keep their shape, given what becomes of each: the indentations of any two of them differ by
as much as before. -/
def KeepShape (pairs : List (Text × Text)) : Prop :=
  ∀ one ∈ pairs, ∀ other ∈ pairs,
    (indentation one.2 : Int) - indentation other.2 = indentation one.1 - indentation other.1

instance (pairs : List (Text × Text)) : Decidable (KeepShape pairs) :=
  inferInstanceAs (Decidable (∀ one ∈ pairs, ∀ other ∈ pairs, _ = _))

/-- Lines that are not blank keep their shape exactly if all of them lose the spaces or none does. -/
theorem keepShape_iff {width : Nat} {pairs : List (Text × Text)}
    (content : ∀ pair ∈ pairs, allBlank pair.1 = false)
    (stripped : ∀ pair ∈ pairs, Stripped width pair.1 pair.2) :
    KeepShape pairs ↔
      (∀ pair ∈ pairs, Spaced width pair.1) ∨ ∀ pair ∈ pairs, ¬ Spaced width pair.1 := by
  have loses (pair) (member : pair ∈ pairs) (spaced : Spaced width pair.1) :
      width + indentation pair.2 = indentation pair.1 :=
    (stripped pair member).indentation_of_spaced (content pair member) spaced
  have stays (pair) (member : pair ∈ pairs) (other : ¬ Spaced width pair.1) :
      indentation pair.2 = indentation pair.1 :=
    (stripped pair member).indentation_of_not_spaced (content pair member) other
  constructor
  · intro keep
    refine Classical.byContradiction fun mixed => ?_
    simp only [not_or, not_forall, Classical.not_not] at mixed
    obtain ⟨⟨one, inPairs, other⟩, two, inPairs', spaced⟩ := mixed
    -- The two indentations came closer by the width, which is not zero.
    have positive : width ≠ 0 := by
      rintro rfl
      exact other List.nil_prefix
    have same := keep one inPairs two inPairs'
    have lost := loses two inPairs' spaced
    rw [stays one inPairs other] at same
    omega
  · rintro (all | none) one inPairs two inPairs'
    · have lost := loses one inPairs (all one inPairs)
      have lost' := loses two inPairs' (all two inPairs')
      omega
    · rw [stays one inPairs (none one inPairs), stays two inPairs' (none two inPairs')]

/-! ### The lines of a block -/

/-- The lines that are not blank. -/
def contentLines (cut : List Text) : List Text :=
  cut.filter fun line => !allBlank line

/-- The lines behind the first one that are not blank. -/
def followers (block : List Text) : List Text :=
  contentLines (block.drop 1)

/-- Of some numbers, this is the smallest. -/
def Smallest (width : Nat) (numbers : List Nat) : Prop :=
  width ∈ numbers ∧ ∀ number ∈ numbers, width ≤ number

theorem allBlank_of_mem_contentLines {cut : List Text} {line : Text}
    (member : line ∈ contentLines cut) : allBlank line = false := by
  have content := (List.mem_filter.mp member).2
  rwa [Bool.not_eq_true'] at content

/-- The smallest indentation of some lines; zero if there are none. -/
def smallestIndentation (cut : List Text) : Nat :=
  (cut.map indentation).min?.getD 0

theorem smallest_smallestIndentation {cut : List Text} (nonempty : cut ≠ []) :
    Smallest (smallestIndentation cut) (cut.map indentation) := by
  refine ⟨?_, fun number member => List.min?_getD_le_of_mem member⟩
  rw [smallestIndentation]
  cases least : (cut.map indentation).min? with
  | none => exact absurd (List.map_eq_nil_iff.mp (List.min?_eq_none_iff.mp least)) nonempty
  | some number => exact List.min?_mem least

/-- The amount to take off a block is the smallest indentation behind its first line. -/
theorem sharedIndentation_eq (block : List Text) :
    sharedIndentation block = smallestIndentation (followers block) := rfl

theorem smallest_sharedIndentation {block : List Text} (some : followers block ≠ []) :
    Smallest (sharedIndentation block) ((followers block).map indentation) :=
  smallest_smallestIndentation some

theorem lines_joinLines {cut : List Text} (nonempty : cut ≠ []) (whole : ∀ line ∈ cut, '\n' ∉ line) :
    lines (joinLines cut) = cut := by
  induction cut with
  | nil => exact absurd rfl nonempty
  | cons line more inductionHypothesis =>
    obtain ⟨wholeLine, wholeMore⟩ := List.forall_mem_cons.mp whole
    by_cases single : more = []
    · rw [single]
      exact lines_of_notMem wholeLine
    · rw [joinLines_cons line more single, lines_append_newline, lines_of_notMem wholeLine,
        inductionHypothesis single wholeMore]
      rfl

/-- Every line of the block without its shared indentation gets the lead. -/
theorem lines_reindent {text lead : Text} (content : HasContent text) (whole : '\n' ∉ lead) :
    lines (reindent text lead) = (body text).map (lead ++ ·) := by
  rw [reindent_of_content ((hasContent_iff text).mp content)]
  refine lines_joinLines (fun empty => body_ne_nil text (List.map_eq_nil_iff.mp empty)) ?_
  intro line member
  obtain ⟨kept, inBody, rfl⟩ := List.mem_map.mp member
  exact List.not_mem_append whole (notMem_of_mem_body text kept inBody)

theorem flush_trim {text : Text} (content : HasContent text) : Flush (trim text) := by
  obtain ⟨blanks, back, rfl, blank, flush⟩ :=
    exists_flush_of_content ((hasContent_iff text).mp content)
  rw [trim, trimStart_append blank, flush.trimStart]
  exact flush.trimEnd

/-- The first line of a block starts with the first character of the block. -/
theorem exists_first_line {text : Text} (content : HasContent text) :
    ∃ first more, lines (trim text) = first :: more ∧ Flush first := by
  obtain ⟨c, rest, equal, visible⟩ := (flush_trim content).exists_cons
  have other : c ≠ '\n' := by
    rintro rfl
    exact absurd visible (by decide)
  obtain ⟨line, more, cut⟩ := List.exists_cons_of_ne_nil (lines_ne_nil rest)
  refine ⟨c :: line, more, ?_, congrArg some visible⟩
  rw [equal, lines_cons c rest line more other cut]

/-! ### Reindented blocks -/

/-- The lines of a block behind its first one that are not blank, each with what stands behind the
lead in its place once the block is reindented. -/
def followersReindented (text lead : Text) : List (Text × Text) :=
  (((lines (trim text)).zip ((lines (reindent text lead)).map (List.drop lead.length))).drop
    1).filter fun pair => !allBlank pair.1

theorem followersReindented_eq {text lead : Text} (content : HasContent text)
    (whole : '\n' ∉ lead) :
    followersReindented text lead = (followers (lines (trim text))).map fun line =>
      (line, unindent (sharedIndentation (lines (trim text))) (trimEnd line)) := by
  have behindLead : (lines (reindent text lead)).map (List.drop lead.length) = body text := by
    rw [lines_reindent content whole, List.map_map]
    exact (List.map_congr_left fun line _ => List.drop_left).trans (List.map_id _)
  rw [followersReindented, behindLead, body, ← List.map_prod_left_eq_zip, ← List.map_drop,
    List.filter_map, followers]
  rfl

/-- Reindenting keeps the lines of a block in order and puts the lead in front of each. A line loses
the white space at its end, and the shared indentation where it starts with that many spaces; the
first line loses nothing else, and a blank line leaves the bare lead. The other lines keep their
shape exactly if all of them lose the shared indentation or none does. If all do, one of them ends up
without indentation. -/
theorem reindent_keepShape_iff (text lead : Text) (content : HasContent text)
    (whole : '\n' ∉ lead) :
    let block := lines (trim text)
    let width := sharedIndentation block
    (followers block ≠ [] → Smallest width ((followers block).map indentation)) ∧
      List.Forall₂ (fun line result => ∃ kept, result = lead ++ kept ∧ Stripped width line kept)
        block (lines (reindent text lead)) ∧
      (lines (reindent text lead)).head? = block.head?.map (fun first => lead ++ trimEnd first) ∧
      (KeepShape (followersReindented text lead) ↔
        (∀ line ∈ followers block, Spaced width line) ∨
          ∀ line ∈ followers block, ¬ Spaced width line) ∧
      ((∀ line ∈ followers block, Spaced width line) → followers block ≠ [] →
        ∃ pair ∈ followersReindented text lead, indentation pair.2 = 0) := by
  intro block width
  have pairs := followersReindented_eq content whole
  refine ⟨smallest_sharedIndentation, ?_, ?_, ?_, fun all some => ?_⟩
  · rw [lines_reindent content whole, body, List.map_map, List.forall₂_map_right_iff,
      List.forall₂_same]
    exact fun line _ => ⟨_, rfl, stripped_unindent width line⟩
  · obtain ⟨first, more, cut, flush⟩ := exists_first_line content
    rw [lines_reindent content whole, body]
    show (List.map _ (List.map _ block)).head? = _
    rw [show block = first :: more from cut]
    exact congrArg (fun line => some (lead ++ line)) (unindent_of_flush flush.trimEnd _)
  · rw [pairs, keepShape_iff, List.forall_mem_map, List.forall_mem_map]
    · exact List.forall_mem_map.mpr fun line member => allBlank_of_mem_contentLines member
    · exact List.forall_mem_map.mpr fun line _ => stripped_unindent width line
  · -- The line with the smallest indentation loses all of it.
    obtain ⟨least, _⟩ := smallest_sharedIndentation some
    obtain ⟨line, member, least⟩ := List.mem_map.mp least
    rw [pairs]
    refine ⟨_, List.mem_map_of_mem member, ?_⟩
    have lost := (stripped_unindent width line).indentation_of_spaced
      (allBlank_of_mem_contentLines member) (all line member)
    show indentation (unindent width (trimEnd line)) = 0
    omega

/-- A block with a blank line in it that keeps its shape, and one that does not, because a tab counts
but is not taken off. -/
theorem reindent_keepShape_iff_tab :
    let text : Text := "a\n    b\n \t\n  c \n".toList
    let tabbed : Text := "a\n\tb\n  c".toList
    let lead : Text := ['#', ' ']
    HasContent text ∧ HasContent tabbed ∧ '\n' ∉ lead ∧
      KeepShape (followersReindented text lead) ∧
      (∃ pair ∈ followersReindented text lead, indentation pair.2 = 0) ∧
      ¬ KeepShape (followersReindented tabbed lead) := by
  intro text tabbed lead
  have content : HasContent text := by decide
  have contentTabbed : HasContent tabbed := by decide
  have whole : '\n' ∉ lead := by decide
  obtain ⟨_, _, _, keeps, flat⟩ := reindent_keepShape_iff text lead content whole
  obtain ⟨_, _, _, keepsTabbed, _⟩ := reindent_keepShape_iff tabbed lead contentTabbed whole
  exact ⟨content, contentTabbed, whole, keeps.mpr (Or.inl (by decide)),
    flat (by decide) (by decide), mt keepsTabbed.mp (by decide)⟩

end Scaffold.Text
