/-
This file proves that reindenting a block absorbs an earlier reindenting with spaces.
The earlier one puts the same spaces in front of every line, and trimming takes them off
the first line again. If the lines behind the first all lost their shared indentation,
one of them now stands right behind the spaces, so the spaces are the shared indentation
that the later one takes off. What is left of the lines is the same as before.
-/

import Scaffold.Proofs.Snippets

namespace Scaffold.Text

/-! ### The end of a block -/

theorem joinLines_append_singleton (earlier : List Text) (last : Text) :
    joinLines (earlier ++ [last]) = terminated earlier ++ last := by
  induction earlier with
  | nil => rfl
  | cons line more inductionHypothesis =>
    have nonempty : more ++ [last] ≠ [] := List.concat_ne_nil last more
    rw [List.cons_append, joinLines_cons line _ nonempty, inductionHypothesis, terminated,
      List.append_assoc, List.cons_append]

/-- The back of a text that is trimmed at its end is trimmed there, too. -/
theorem trimEnd_of_trimEnd_append {front back : Text}
    (trimmed : trimEnd (front ++ back) = front ++ back) : trimEnd back = back := by
  by_cases blank : trimEnd back = []
  · have shorter : front ++ back <+: front := by
      rw [← trimmed, trimEnd_append_of_allBlank front ((trimEnd_eq_nil_iff back).mp blank)]
      exact trimEnd_isPrefix front
    have length := shorter.length_le
    rw [List.length_append] at length
    rw [blank, List.eq_nil_of_length_eq_zero (show back.length = 0 by omega)]
  · rw [trimEnd_append front blank] at trimmed
    exact List.append_cancel_left trimmed

/-- A block ends with content, so its last line does. -/
theorem exists_last_line {text : Text} (content : HasContent text) :
    ∃ earlier last, lines (trim text) = earlier ++ [last] ∧ allBlank last = false := by
  obtain ⟨earlier, last, cut⟩ : ∃ earlier last, lines (trim text) = earlier ++ [last] :=
    ⟨_, _, (List.dropLast_concat_getLast (lines_ne_nil (trim text))).symm⟩
  have joined : trim text = terminated earlier ++ last := by
    rw [← joinLines_append_singleton, ← cut, joinLines_lines]
  have trimmed : trimEnd (terminated earlier ++ last) = terminated earlier ++ last := by
    rw [← joined, trim, trimEnd_trimEnd]
  refine ⟨earlier, last, cut, eq_false_of_ne_true fun blank => ?_⟩
  by_cases single : earlier = []
  · have visible := (flush_trim content).not_allBlank
    rw [joined, single, terminated, List.nil_append, blank] at visible
    cases visible
  · -- a blank last line would be white space at the end, with the newline in front of it
    rw [terminated_eq_joinLines earlier single, List.append_assoc] at trimmed
    have ending := trimEnd_of_trimEnd_append trimmed
    rw [(trimEnd_eq_nil_iff _).mpr (by rw [allBlank_append, blank]; rfl)] at ending
    exact List.cons_ne_nil _ _ ending.symm

/-! ### What is left of a line -/

theorem Stripped.trimEnd_kept {width : Nat} {line kept : Text}
    (stripped : Stripped width line kept) : trimEnd kept = kept := by
  cases content : allBlank line with
  | true => rw [stripped.blank content]; rfl
  | false =>
    by_cases spaced : Spaced width line
    · have trimmed : trimEnd (List.replicate width ' ' ++ kept) =
          List.replicate width ' ' ++ kept := by
        rw [stripped.spaced content spaced, trimEnd_trimEnd]
      exact trimEnd_of_trimEnd_append trimmed
    · rw [stripped.other content spaced, trimEnd_trimEnd]

theorem trimEnd_of_mem_body {text line : Text} (member : line ∈ body text) :
    trimEnd line = line := by
  obtain ⟨source, _, rfl⟩ := List.mem_map.mp member
  exact (stripped_unindent _ source).trimEnd_kept

/-- Spaces in front of a trimmed line are taken off again. In front of nothing they are trimmed
off, whatever the width. -/
theorem unindent_spaces {line : Text} (trimmed : trimEnd line = line) {width count : Nat}
    (same : line ≠ [] → width = count) :
    unindent width (trimEnd (List.replicate count ' ' ++ line)) = line := by
  by_cases empty : line = []
  · rw [empty, List.append_nil, (trimEnd_eq_nil_iff _).mpr (allBlank_replicate count)]
    exact (stripped_unindent width []).blank rfl
  · rw [same empty, trimEnd_append _ (by rw [trimmed]; exact empty), trimmed]
    exact List.append_cancel_left (unindent_of_spaced (List.prefix_append _ line))

/-! ### The lines of a reindented block -/

theorem joinLines_append_cons (front line : Text) (more : List Text) :
    joinLines ((front ++ line) :: more) = front ++ joinLines (line :: more) := by
  cases more with
  | nil => rfl
  | cons next later => exact List.append_assoc _ _ _

section Block

variable {text : Text} (content : HasContent text)
include content

/-- The first line of a block loses nothing at its start. -/
theorem exists_body : ∃ first more, body text = first :: more ∧ Flush first := by
  obtain ⟨first, more, cut, flush⟩ := exists_first_line content
  rw [body, cut, List.map_cons, unindent_of_flush flush.trimEnd]
  exact ⟨_, _, rfl, flush.trimEnd⟩

theorem trimEnd_reindent (lead : Text) : trimEnd (reindent text lead) = reindent text lead := by
  obtain ⟨earlier, last, cut, visible⟩ := exists_last_line content
  have trimmed := (stripped_unindent (sharedIndentation (lines (trim text))) last).trimEnd_kept
  rw [reindent_of_content ((hasContent_iff text).mp content), body, cut, List.map_append,
    List.map_append, List.map_singleton, List.map_singleton, joinLines_append_singleton,
    ← List.append_assoc, ← cut, trimEnd_append, trimmed]
  rw [Ne, trimEnd_eq_nil_iff, allBlank_unindent, allBlank_trimEnd, visible]
  exact Bool.false_ne_true

variable {first : Text} {more : List Text} (cut : body text = first :: more)
include cut

theorem flush_of_body : Flush first := by
  obtain ⟨first', more', cut', flush⟩ := exists_body content
  rwa [(List.cons.inj (cut.symm.trans cut')).1]

theorem reindent_eq_append (lead : Text) :
    reindent text lead = lead ++ joinLines (first :: more.map (lead ++ ·)) := by
  rw [reindent_of_content ((hasContent_iff text).mp content), cut, List.map_cons,
    joinLines_append_cons]

/-- Trimming takes the lead off the first line only. -/
theorem lines_trim_reindent {lead : Text} (blank : BlankLine lead) :
    lines (trim (reindent text lead)) = first :: more.map (lead ++ ·) := by
  have flush := (flush_of_body content cut).joinLines (more.map (lead ++ ·))
  have trimmed := trimEnd_reindent content lead
  have whole := notMem_of_mem_body text
  rw [cut] at whole
  obtain ⟨wholeFirst, wholeMore⟩ := List.forall_mem_cons.mp whole
  -- the end of the block was trimmed before, and behind the lead it starts with content
  rw [reindent_eq_append content cut] at trimmed ⊢
  rw [trim, trimStart_append blank.2, flush.trimStart, trimEnd_of_trimEnd_append trimmed]
  exact lines_joinLines (List.cons_ne_nil _ _) (List.forall_mem_cons.mpr ⟨wholeFirst,
    List.forall_mem_map.mpr fun line member => List.not_mem_append blank.1 (wholeMore line member)⟩)

theorem hasContent_reindent (lead : Text) : HasContent (reindent text lead) := by
  rw [hasContent_iff, reindent_eq_append content cut, allBlank_append,
    ((flush_of_body content cut).joinLines _).not_allBlank, Bool.and_false]

end Block

/-! ### Blocks that lose their shared indentation -/

/-- Every line behind the first one of a block that is not blank starts with as many spaces as the
smallest indentation among these lines. -/
def EvenlyIndented (text : Text) : Prop :=
  ∀ line ∈ followers (lines (trim text)),
    Spaced (smallestIndentation (followers (lines (trim text)))) line

instance (text : Text) : Decidable (EvenlyIndented text) :=
  inferInstanceAs (Decidable (∀ line ∈ followers (lines (trim text)), _))

section Body

variable {text first : Text} {more : List Text} (cut : body text = first :: more)
include cut

theorem contentLines_body : contentLines more = (followers (lines (trim text))).map fun line =>
    unindent (sharedIndentation (lines (trim text))) (trimEnd line) := by
  have behind : more = ((lines (trim text)).drop 1).map fun line =>
      unindent (sharedIndentation (lines (trim text))) (trimEnd line) := by
    rw [List.map_drop, ← body, cut]
    rfl
  rw [behind, followers]
  exact contentLines_map _ (fun line => by rw [allBlank_unindent, allBlank_trimEnd]) _

variable (even : EvenlyIndented text)
include even

/-- The line with the smallest indentation is left without any. -/
theorem exists_flat (some : contentLines more ≠ []) :
    ∃ kept ∈ contentLines more, indentation kept = 0 := by
  rw [contentLines_body cut, Ne, List.map_eq_nil_iff] at some
  obtain ⟨least, _⟩ := smallest_sharedIndentation some
  obtain ⟨line, member, least⟩ := List.mem_map.mp least
  rw [contentLines_body cut]
  refine ⟨_, List.mem_map_of_mem member, ?_⟩
  have stripped := stripped_unindent (sharedIndentation (lines (trim text))) line
  have lost := stripped.indentation_of_spaced (allBlank_of_mem_contentLines member)
    (even line member)
  omega

variable (content : HasContent text)
include content

/-- Spaces that were put in front of every line are the shared indentation afterwards. -/
theorem sharedIndentation_reindent (count : Nat) (some : contentLines more ≠ []) :
    sharedIndentation (lines (trim (reindent text (List.replicate count ' ')))) = count := by
  have blank := allBlank_replicate count
  have moved (kept : Text) :
      indentation (List.replicate count ' ' ++ kept) = count + indentation kept := by
    rw [indentation_append blank, List.length_replicate]
  have behind : followers (lines (trim (reindent text (List.replicate count ' ')))) =
      (contentLines more).map (List.replicate count ' ' ++ ·) := by
    rw [lines_trim_reindent content cut (blankLine_replicate count), followers, List.drop_one,
      List.tail_cons]
    exact contentLines_map _ (fun line => by rw [allBlank_append, blank, Bool.true_and]) more
  have nonempty : (contentLines more).map (List.replicate count ' ' ++ ·) ≠ [] :=
    mt List.map_eq_nil_iff.mp some
  obtain ⟨kept, member, flat⟩ := exists_flat cut even some
  rw [sharedIndentation_eq, behind]
  refine (smallest_smallestIndentation nonempty).unique ⟨?_, ?_⟩
  · exact List.mem_map.mpr ⟨_, List.mem_map_of_mem member, by rw [moved, flat, Nat.add_zero]⟩
  · rw [List.map_map]
    refine List.forall_mem_map.mpr fun line _ => ?_
    rw [Function.comp_apply, moved]
    exact Nat.le_add_right _ _

theorem body_reindent (count : Nat) :
    body (reindent text (List.replicate count ' ')) = body text := by
  have trimmed (line : Text) (member : line ∈ first :: more) : trimEnd line = line :=
    trimEnd_of_mem_body (cut ▸ member)
  rw [body, lines_trim_reindent content cut (blankLine_replicate count), List.map_cons,
    List.map_map, trimmed first List.mem_cons_self,
    unindent_of_flush (flush_of_body content cut), cut]
  refine congrArg (first :: ·) ?_
  conv_rhs => rw [← List.map_id more]
  refine List.map_congr_left fun line member => ?_
  have known := trimmed line (List.mem_cons_of_mem first member)
  -- a line that is not lost has content, so the block has a shared indentation
  refine unindent_spaces known fun nonempty => ?_
  have visible : line ∈ contentLines more := by
    refine List.mem_filter.mpr ⟨member, ?_⟩
    rw [Bool.not_eq_true', ← Bool.not_eq_true, ← trimEnd_eq_nil_iff, known]
    exact nonempty
  rw [← lines_trim_reindent content cut (blankLine_replicate count)]
  exact sharedIndentation_reindent cut even content count (List.ne_nil_of_mem visible)

end Body

/-- A block that is indented with spaces loses its shared indentation on every line. -/
theorem SpaceIndented.evenlyIndented {text : Text} (spaces : SpaceIndented text) :
    EvenlyIndented text := by
  intro line member
  have visible := allBlank_of_mem_contentLines member
  have least : smallestIndentation (followers (lines (trim text))) ≤ indentation line :=
    List.min?_getD_le_of_mem (List.mem_map_of_mem member)
  by_cases content : HasContent text
  · obtain ⟨first, rest, cut⟩ := exists_contentLines content
    obtain ⟨source, inRest, same⟩ : ∃ source ∈ rest, trimEnd source = trimEnd line := by
      rw [← List.mem_map, ← map_trimEnd_followers cut]
      exact List.mem_map_of_mem member
    have inLines : source ∈ first :: rest := List.mem_cons_of_mem first inRest
    have visibleSource := allBlank_of_mem_cut cut inLines
    have spaced : Spaced (indentation line) line := by
      rw [← spaced_trimEnd_iff visible, ← indentation_trimEnd visible, ← same,
        indentation_trimEnd visibleSource, spaced_trimEnd_iff visibleSource]
      exact spaces source (cut ▸ inLines)
    exact spaced.mono least
  · -- a blank text has no line behind its first
    have blank : allBlank text = true := by
      rwa [hasContent_iff, Bool.not_eq_false] at content
    rw [trim_of_allBlank blank] at member
    cases member

theorem reindent_reindent {text : Text} (even : EvenlyIndented text) (count : Nat) (lead : Text) :
    reindent (reindent text (List.replicate count ' ')) lead = reindent text lead := by
  cases blank : allBlank text with
  | true =>
    have same (lead : Text) : reindent text lead = text := by rw [reindent, if_pos blank]
    rw [same, same]
  | false =>
    have content := (hasContent_iff text).mpr blank
    obtain ⟨first, more, cut, _⟩ := exists_body content
    have again := (hasContent_iff _).mp (hasContent_reindent content cut (List.replicate count ' '))
    rw [reindent_of_content again, body_reindent cut even content, reindent_of_content blank]

/-- Reindenting a block with any number of spaces first makes no difference to reindenting it, if
its lines behind the first all lose their shared indentation. Texts that are indented with spaces
are such. So on these texts reindenting without a lead a second time changes nothing. -/
theorem reindent_absorbs :
    (∀ text : Text, EvenlyIndented text → ∀ (count : Nat) (lead : Text),
      reindent (reindent text (List.replicate count ' ')) lead = reindent text lead) ∧
    (∀ text : Text, EvenlyIndented text → reindent (reindent text []) [] = reindent text []) ∧
    ∀ text : Text, SpaceIndented text → EvenlyIndented text :=
  ⟨fun _ even count lead => reindent_reindent even count lead,
    fun _ even => reindent_reindent even 0 [], fun _ spaces => spaces.evenlyIndented⟩

/-- A block with a tab that stands behind the shared indentation, and a blank line that is longer
than the others. -/
theorem reindent_absorbs_tab :
    let text : Text := "  a \n   \tb\n      \t \n  c \n".toList
    EvenlyIndented text ∧
      reindent (reindent text (List.replicate 3 ' ')) "# ".toList =
        "# a\n#  \tb\n# \n# c".toList := by
  intro text
  have even : EvenlyIndented text := by decide
  exact ⟨even, (reindent_absorbs.1 text even 3 "# ".toList).trans (by decide)⟩

end Scaffold.Text
