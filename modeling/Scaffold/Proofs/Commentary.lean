/-
This file proves that a comment keeps to itself. A marker with content leaves no line of
the comment blank, the blank lines of its text included, so compaction takes none of them
out and joins none with the lines before. All it takes is the white space at their ends.
-/

import Scaffold.Proofs.Outline
import Scaffold.Proofs.Snippets

namespace Scaffold.Text

/-! ### Lines with content under compaction -/

/-- Lines with content are lines without a run of blank lines behind them. -/
theorem exists_spacedLines {cut : List Text} (whole : ∀ line ∈ cut, '\n' ∉ line)
    (content : ∀ line ∈ cut, allBlank line = false) :
    ∃ spaced : List SpacedLine, spaced.flatMap SpacedLine.lines = cut ∧
      spaced.flatMap SpacedLine.tidied = cut.map trimEnd := by
  induction cut with
  | nil => exact ⟨[], rfl, rfl⟩
  | cons line rest inductionHypothesis =>
    obtain ⟨wholeLine, wholeRest⟩ := List.forall_mem_cons.mp whole
    obtain ⟨contentLine, contentRest⟩ := List.forall_mem_cons.mp content
    obtain ⟨spaced, same, tidied⟩ := inductionHypothesis wholeRest contentRest
    refine ⟨⟨line, [], wholeLine, contentLine, List.forall_mem_nil _⟩ :: spaced, ?_, ?_⟩
    · rw [List.flatMap_cons, same]
      rfl
    · rw [List.flatMap_cons, tidied]
      rfl

/-- Compaction keeps a finished text and lines with content behind it apart. -/
theorem compact_append_terminated {front : Text} (finished : front = [] ∨ ['\n'] <:+ front)
    {cut : List Text} (whole : ∀ line ∈ cut, '\n' ∉ line)
    (content : ∀ line ∈ cut, allBlank line = false) :
    compact (front ++ terminated cut) = compact front ++ terminated (cut.map trimEnd) := by
  obtain ⟨spaced, same, tidied⟩ := exists_spacedLines whole content
  have kept := compact_spacedLines spaced [] List.not_mem_nil
  rw [same, tidied, List.append_nil, List.append_nil] at kept
  rw [compact_append_of_finished finished (by rw [kept.1]; exact kept.2), kept.1]

/-- What stands in front shows at the start of the trimmed text. -/
theorem trimEnd_isPrefix_append (front back : Text) :
    trimEnd front <+: trimEnd (front ++ back) := by
  by_cases content : trimEnd back = []
  · have same := trimEnd_append_of_allBlank front ((trimEnd_eq_nil_iff back).mp content)
    exact ⟨[], by rw [same, List.append_nil]⟩
  · rw [trimEnd_append front content]
    exact (trimEnd_isPrefix front).trans (List.prefix_append front _)

/-! ### The lines of a comment -/

section Lead

variable {text lead : Text} (content : HasContent text)
include content

theorem blockLines_of_content : blockLines text lead = (lines (trim text)).map fun line =>
    lead ++ unindent (sharedIndentation (lines (trim text))) (trimEnd line) := by
  rw [blockLines, (hasContent_iff text).mp content, if_neg Bool.false_ne_true, body, List.map_map]
  rfl

/-- A lead with content leaves no line of a block blank. -/
theorem allBlank_of_mem_blockLines (visible : HasContent lead) {line : Text}
    (member : line ∈ blockLines text lead) : allBlank line = false := by
  rw [blockLines_of_content content] at member
  obtain ⟨source, _, rfl⟩ := List.mem_map.mp member
  rw [allBlank_append, (hasContent_iff lead).mp visible, Bool.false_and]

theorem trimEnd_isPrefix_of_mem_blockLines {line : Text} (member : line ∈ blockLines text lead) :
    trimEnd lead <+: trimEnd line := by
  rw [blockLines_of_content content] at member
  obtain ⟨source, _, rfl⟩ := List.mem_map.mp member
  exact trimEnd_isPrefix_append lead _

theorem forall₂_blockLines :
    List.Forall₂ (fun line result => ∃ kept, trim kept = trim line ∧
        result = trimEnd (lead ++ kept))
      (lines (trim text)) ((blockLines text lead).map trimEnd) := by
  rw [blockLines_of_content content, List.map_map, List.forall₂_map_right_iff, List.forall₂_same]
  exact fun line _ => ⟨_, (trim_unindent _ _).trans (trim_trimEnd line), rfl⟩

end Lead

end Scaffold.Text

namespace Scaffold.Code.Buffer

open Text

/-- A comment in front of which the last line is finished adds one line for each line of its trimmed
text, the blank ones included: the indentation, the marker and the line, up to the white space around
it. So no line of the text stands outside of the comment. -/
theorem build_comment (buffer : Buffer) (marker text : Text)
    (finished : buffer.text = [] ∨ ['\n'] <:+ buffer.text) (whole : '\n' ∉ marker)
    (visible : HasContent marker) (content : HasContent text) :
    ∃ added, (buffer.comment marker text).build = buffer.build ++ terminated added ∧
      (∀ result ∈ added, '\n' ∉ result ∧
        trimEnd (buffer.indent.repeated buffer.level ++ marker) <+: result) ∧
      List.Forall₂ (fun line result => ∃ kept, trim kept = trim line ∧
        result = trimEnd (buffer.indent.repeated buffer.level ++ marker ++ kept))
        (lines (trim text)) added := by
  have indentation : BlankLine (buffer.indent.repeated buffer.level) :=
    buffer.indent.blankLine_repeated buffer.level
  have leadWhole := List.not_mem_append indentation.1 whole
  have leadVisible : HasContent (buffer.indent.repeated buffer.level ++ marker) := by
    rw [hasContent_iff, allBlank_append, (hasContent_iff marker).mp visible, Bool.and_false]
  have wholeLines := notMem_of_mem_blockLines text leadWhole
  refine ⟨(blockLines text (buffer.indent.repeated buffer.level ++ marker)).map trimEnd, ?_, ?_,
    forall₂_blockLines content⟩
  · rw [comment, Buffer.margin, Move.reindented_eq_raw, block_eq_terminated]
    exact compact_append_terminated finished wholeLines
      fun line member => allBlank_of_mem_blockLines content leadVisible member
  · exact List.forall_mem_map.mpr fun line member => ⟨notMem_trimEnd (wholeLines line member),
      trimEnd_isPrefix_of_mem_blockLines content member⟩

/-- Two blank lines in a comment behind two empty lines. -/
theorem build_comment_blank :
    let buffer : Buffer := { indent := .tab, level := 1, text := "x\n\n\n".toList }
    let text : Text := "\n a \r\n\t\n\n  b\n".toList
    '\n' ∉ "# ".toList ∧ HasContent "# ".toList ∧ HasContent text ∧
      ['\n'] <:+ buffer.text ∧
      ∃ added, (buffer.comment "# ".toList text).build = "x\n\n".toList ++ terminated added ∧
        added.length = 4 := by
  intro buffer text
  have whole : '\n' ∉ "# ".toList := by decide
  have visible : HasContent "# ".toList := by decide
  have content : HasContent text := by decide
  have finished : ['\n'] <:+ buffer.text := by decide
  obtain ⟨added, built, _, paired⟩ :=
    build_comment buffer "# ".toList text (Or.inr finished) whole visible content
  exact ⟨whole, visible, content, finished, added, built, paired.length_eq.symm⟩

end Scaffold.Code.Buffer
