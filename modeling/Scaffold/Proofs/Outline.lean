/-
This file says what compaction does to a text as a whole. A text has one outline:
blank lines at the very start, then lines with content, each with the run of blank
lines right behind it, and last a tail that no newline ends. Compaction keeps the
lines with content and the tail, and cuts down the runs of blank lines between
them; a run at the start may keep one line more than the others, because no line
with content stands in front of it whose own newline would count.
-/

import Mathlib.Logic.ExistsUnique
import Scaffold.Text.Compact

namespace Scaffold.Text

/-! ### Outlines -/

/-- A line with content, and the run of blank lines right behind it. -/
@[ext]
structure SpacedLine where
  line : Text
  gap : List Text
  whole : '\n' ∉ line
  content : allBlank line = false
  blank : ∀ empty ∈ gap, BlankLine empty

/-- The blank lines at the start of a text, its lines with content, and its tail. Every line but the
tail has a newline behind it. -/
@[ext]
structure Outline where
  lead : List Text
  spaced : List SpacedLine
  tail : Text
  blank : ∀ empty ∈ lead, BlankLine empty
  whole : '\n' ∉ tail

namespace SpacedLine

def lines (spaced : SpacedLine) : List Text :=
  spaced.line :: spaced.gap

/-- The line without the blanks at its end, and one empty line if any blank lines were behind it. -/
def tidied (spaced : SpacedLine) : List Text :=
  trimEnd spaced.line :: List.replicate (min 1 spaced.gap.length) []

end SpacedLine

namespace Outline

/-- The lines with a newline behind them. -/
def lines (outline : Outline) : List Text :=
  outline.lead ++ outline.spaced.flatMap SpacedLine.lines

/-- The text that has the outline. -/
def text (outline : Outline) : Text :=
  terminated outline.lines ++ outline.tail

/-- The lines that compaction leaves: at most two empty ones at the start. -/
def tidied (outline : Outline) : List Text :=
  List.replicate (min 2 outline.lead.length) [] ++ outline.spaced.flatMap SpacedLine.tidied

end Outline

/-! ### Every text has one outline -/

/-- The outline with one more line in front. -/
def Outline.cons (line : Text) (whole : '\n' ∉ line) (outline : Outline) : Outline :=
  if blank : allBlank line = true then
    { outline with
      lead := line :: outline.lead
      blank := List.forall_mem_cons.mpr ⟨⟨whole, blank⟩, outline.blank⟩ }
  else
    { outline with
      lead := []
      spaced := ⟨line, outline.lead, whole, eq_false_of_ne_true blank, outline.blank⟩ ::
        outline.spaced
      blank := List.forall_mem_nil _ }

theorem Outline.text_cons (line : Text) (whole : '\n' ∉ line) (outline : Outline) :
    (Outline.cons line whole outline).text = line ++ '\n' :: outline.text := by
  rw [Outline.cons]
  split <;>
    simp only [Outline.text, Outline.lines, SpacedLine.lines, List.flatMap_cons, List.nil_append,
      List.cons_append, terminated, List.append_assoc]

theorem exists_outline (text : Text) : ∃ outline : Outline, outline.text = text := by
  induction text using lineInduction with
  | last tail whole => exact ⟨⟨[], [], tail, List.forall_mem_nil _, whole⟩, rfl⟩
  | line line rest whole inductionHypothesis =>
    obtain ⟨outline, equal⟩ := inductionHypothesis
    exact ⟨Outline.cons line whole outline, by rw [Outline.text_cons, equal]⟩

theorem Outline.notMem_of_mem_lines (outline : Outline) (line : Text)
    (member : line ∈ outline.lines) : '\n' ∉ line := by
  rw [Outline.lines, List.mem_append, List.mem_flatMap] at member
  rcases member with leading | ⟨spaced, _, here⟩
  · exact (outline.blank line leading).1
  · rcases List.mem_cons.mp here with rfl | inGap
    · exact spaced.whole
    · exact (spaced.blank line inGap).1

/-- A run of blank lines in front of lines with content ends where the content begins. -/
theorem takeWhile_allBlank (run : List Text) (spaced : List SpacedLine)
    (blank : ∀ empty ∈ run, BlankLine empty) :
    (run ++ spaced.flatMap SpacedLine.lines).takeWhile allBlank = run := by
  rw [List.takeWhile_append_of_pos fun empty member => (blank empty member).2]
  cases spaced with
  | nil => exact List.append_nil run
  | cons first more =>
    rw [List.flatMap_cons, SpacedLine.lines, List.cons_append,
      List.takeWhile_cons_of_neg (by rw [first.content]; exact Bool.false_ne_true),
      List.append_nil]

theorem lead_eq_of_append_eq (run run' : List Text) (spaced spaced' : List SpacedLine)
    (blank : ∀ empty ∈ run, BlankLine empty) (blank' : ∀ empty ∈ run', BlankLine empty)
    (equal : run ++ spaced.flatMap SpacedLine.lines = run' ++ spaced'.flatMap SpacedLine.lines) :
    run = run' ∧ spaced.flatMap SpacedLine.lines = spaced'.flatMap SpacedLine.lines := by
  have same : run = run' := by
    rw [← takeWhile_allBlank run spaced blank, equal, takeWhile_allBlank run' spaced' blank']
  rw [same] at equal
  exact ⟨same, List.append_cancel_left equal⟩

theorem flatMap_lines_injective (spaced spaced' : List SpacedLine)
    (equal : spaced.flatMap SpacedLine.lines = spaced'.flatMap SpacedLine.lines) :
    spaced = spaced' := by
  induction spaced generalizing spaced' with
  | nil =>
    cases spaced' with
    | nil => rfl
    | cons first' more' => exact absurd equal.symm (List.cons_ne_nil _ _)
  | cons first more inductionHypothesis =>
    cases spaced' with
    | nil => exact absurd equal (List.cons_ne_nil _ _)
    | cons first' more' =>
      obtain ⟨sameLine, behind⟩ := List.cons_eq_cons.mp equal
      obtain ⟨sameGap, sameMore⟩ :=
        lead_eq_of_append_eq first.gap first'.gap more more' first.blank first'.blank behind
      rw [SpacedLine.ext sameLine sameGap, inductionHypothesis more' sameMore]

theorem Outline.text_injective (outline outline' : Outline)
    (equal : outline.text = outline'.text) : outline = outline' := by
  have cut := congrArg Text.lines equal
  rw [Outline.text, Outline.text,
    lines_terminated_append _ outline.notMem_of_mem_lines, lines_of_notMem outline.whole,
    lines_terminated_append _ outline'.notMem_of_mem_lines, lines_of_notMem outline'.whole] at cut
  obtain ⟨sameLines, sameTail⟩ := List.append_inj' cut rfl
  obtain ⟨sameLead, sameFlat⟩ := lead_eq_of_append_eq _ _ _ _ outline.blank outline'.blank sameLines
  exact Outline.ext sameLead (flatMap_lines_injective _ _ sameFlat) (List.singleton_inj.mp sameTail)

theorem existsUnique_outline (text : Text) : ∃! outline : Outline, outline.text = text := by
  obtain ⟨outline, equal⟩ := exists_outline text
  exact ⟨outline, equal, fun other same =>
    Outline.text_injective other outline (same.trans equal.symm)⟩

/-! ### What compaction leaves of it -/

theorem terminated_replicate (count : Nat) :
    terminated (List.replicate count []) = List.replicate count '\n' := by
  induction count with
  | zero => rfl
  | succ count inductionHypothesis =>
    rw [List.replicate_succ, terminated, inductionHypothesis, List.replicate_succ, List.nil_append]

/-- One more newline in front of a run that is followed by something else: two are the limit. -/
theorem settle_newline_replicate (count : Nat) (kept : Text) (other : kept.head? ≠ some '\n') :
    settle '\n' (List.replicate (min 2 count) '\n' ++ kept) =
      List.replicate (min 2 (count + 1)) '\n' ++ kept := by
  match count with
  | 0 => exact settle_of_not_idle (not_idle_newline other)
  | 1 =>
    refine settle_of_not_idle ?_
    rw [idle_newline_iff]
    rintro ⟨tail, equal⟩
    have behind : '\n' :: tail = kept := (List.cons_eq_cons.mp equal).2
    exact other (behind ▸ rfl)
  | count + 2 =>
    rw [Nat.min_eq_left (by omega), Nat.min_eq_left (by omega)]
    exact settle_of_idle ((idle_newline_iff _).mpr ⟨kept, rfl⟩)

theorem compact_blankLines (run : List Text) (rest : Text)
    (blank : ∀ empty ∈ run, BlankLine empty) (other : (compact rest).head? ≠ some '\n') :
    compact (terminated run ++ rest) = List.replicate (min 2 run.length) '\n' ++ compact rest := by
  induction run with
  | nil => rfl
  | cons line more inductionHypothesis =>
    obtain ⟨⟨whole, blankLine⟩, blankMore⟩ := List.forall_mem_cons.mp blank
    rw [terminated, List.append_assoc, List.cons_append, compact_line whole,
      (trimEnd_eq_nil_iff line).mpr blankLine, List.nil_append, inductionHypothesis blankMore,
      settle_newline_replicate _ _ other, List.length_cons]

theorem compact_spacedLine (spaced : SpacedLine) (rest : Text)
    (other : (compact rest).head? ≠ some '\n') :
    compact (terminated spaced.lines ++ rest) = terminated spaced.tidied ++ compact rest := by
  have count : min 2 (spaced.gap.length + 1) = min 1 spaced.gap.length + 1 := by omega
  rw [SpacedLine.lines, terminated, List.append_assoc, List.cons_append, compact_line spaced.whole,
    compact_blankLines spaced.gap rest spaced.blank other, settle_newline_replicate _ _ other,
    count, SpacedLine.tidied, terminated, terminated_replicate, List.append_assoc,
    List.replicate_succ]

/-- Content in front keeps the newlines of the run behind it apart from those before it. -/
theorem head?_terminated_tidied (spaced : SpacedLine) (rest : Text) :
    (terminated spaced.tidied ++ rest).head? ≠ some '\n' := by
  cases kept : trimEnd spaced.line with
  | nil =>
    have blank := (trimEnd_eq_nil_iff spaced.line).mp kept
    exact absurd (blank.symm.trans spaced.content) (by decide)
  | cons c more =>
    rw [SpacedLine.tidied, kept]
    intro head
    have newline : c = '\n' := Option.some_inj.mp head
    exact notMem_trimEnd spaced.whole (kept ▸ newline ▸ List.mem_cons_self)

theorem compact_spacedLines (spaced : List SpacedLine) (tail : Text) (whole : '\n' ∉ tail) :
    compact (terminated (spaced.flatMap SpacedLine.lines) ++ tail) =
        terminated (spaced.flatMap SpacedLine.tidied) ++ tail ∧
      (terminated (spaced.flatMap SpacedLine.tidied) ++ tail).head? ≠ some '\n' := by
  induction spaced with
  | nil =>
    refine ⟨compact_of_notMem whole, fun head => ?_⟩
    obtain ⟨more, rfl⟩ := List.head?_eq_some_iff.mp head
    exact whole List.mem_cons_self
  | cons first more inductionHypothesis =>
    obtain ⟨equal, other⟩ := inductionHypothesis
    rw [List.flatMap_cons, List.flatMap_cons, terminated_append, terminated_append,
      List.append_assoc, List.append_assoc]
    refine ⟨?_, head?_terminated_tidied first _⟩
    rw [compact_spacedLine first _ (by rw [equal]; exact other), equal]

theorem Outline.compact_text (outline : Outline) :
    compact outline.text = terminated outline.tidied ++ outline.tail := by
  obtain ⟨equal, other⟩ := compact_spacedLines outline.spaced outline.tail outline.whole
  rw [Outline.text, Outline.lines, Outline.tidied, terminated_append, terminated_append,
    List.append_assoc, List.append_assoc, terminated_replicate,
    compact_blankLines outline.lead _ outline.blank (by rw [equal]; exact other), equal]

/-- Compaction keeps the tail as it is and every line with content without the blanks at its end. Of
a run of blank lines one is left, as an empty line, and up to two of a run at the very start. -/
theorem compact_keeps_content :
    (∀ text : Text, ∃! outline : Outline, outline.text = text) ∧
      ∀ outline : Outline, compact outline.text = terminated outline.tidied ++ outline.tail :=
  ⟨existsUnique_outline, Outline.compact_text⟩

example : compact "\n\n\nwit  \n \t\n\nis \n".toList = "\n\nwit\n\nis\n".toList := by decide

end Scaffold.Text
