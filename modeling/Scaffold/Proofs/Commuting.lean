/-
This file proves that compaction may come before reindenting as well as behind it. What
compaction takes out of a text is white space, so trimming finds the same first and last
lines, and the lines with content have the same indentation as before. The lines that are
gone are blank ones behind a blank one. Reindenting puts white space in front of those
that stay, and the compaction behind it makes them blank again.
-/

import Scaffold.Proofs.Snippets
import Scaffold.Proofs.Splicing

namespace Scaffold.Text

/-! ### Compaction under trimming -/

theorem isBlank_of_idle {c : Char} {kept : Text} (idle : Idle c kept) : isBlank c = true :=
  Bool.of_not_eq_false fun content => not_idle_of_content content kept idle

theorem allBlank_settle (c : Char) (kept : Text) :
    allBlank (settle c kept) = allBlank (c :: kept) := by
  by_cases idle : Idle c kept
  · rw [settle_of_idle idle, allBlank_cons, isBlank_of_idle idle, Bool.true_and]
  · rw [settle_of_not_idle idle]

theorem allBlank_compact (text : Text) : allBlank (compact text) = allBlank text := by
  induction text with
  | nil => rfl
  | cons c rest inductionHypothesis =>
    rw [compact_cons, allBlank_settle, allBlank_cons, inductionHypothesis, allBlank_cons]

theorem trimStart_compact (text : Text) : trimStart (compact text) = compact (trimStart text) := by
  induction text with
  | nil => rfl
  | cons c rest inductionHypothesis =>
    cases visible : isBlank c with
    | true =>
      have blank : allBlank [c] = true := by rw [allBlank_cons, visible]; rfl
      have dropped (back : Text) : trimStart (c :: back) = trimStart back :=
        trimStart_append blank back
      rw [compact_cons, dropped, ← inductionHypothesis]
      by_cases idle : Idle c (compact rest)
      · rw [settle_of_idle idle]
      · rw [settle_of_not_idle idle, dropped]
    | false =>
      have flush (back : Text) : Flush (c :: back) := congrArg some visible
      rw [(flush rest).trimStart, compact_cons, settle_of_not_idle (not_idle_of_content visible _),
        (flush _).trimStart]

/-- Whether a character is idle shows in the white space at the start of the text behind it. -/
theorem idle_trimEnd_iff (c : Char) {kept : Text} (content : allBlank kept = false) :
    Idle c (trimEnd kept) ↔ Idle c kept := by
  have head (text : Text) : text.head? = some '\n' ↔ ['\n'] <+: text := by
    rw [List.head?_eq_some_iff]
    exact exists_congr fun tail => eq_comm
  rw [Idle, Idle, head, head, isPrefix_trimEnd_iff content rfl, isPrefix_trimEnd_iff content rfl]

theorem trimEnd_settle {c : Char} {kept : Text} (content : allBlank (c :: kept) = false) :
    trimEnd (settle c kept) = settle c (trimEnd kept) := by
  by_cases idle : Idle c kept
  · rw [allBlank_cons, isBlank_of_idle idle, Bool.true_and] at content
    rw [settle_of_idle idle, settle_of_idle ((idle_trimEnd_iff c content).mpr idle)]
  · have busy : ¬ Idle c (trimEnd kept) := by
      cases behind : allBlank kept with
      | true =>
        rw [allBlank_cons, behind, Bool.and_true] at content
        exact not_idle_of_content content _
      | false => exact mt (idle_trimEnd_iff c behind).mp idle
    rw [settle_of_not_idle idle, settle_of_not_idle busy, trimEnd_cons content]

theorem trimEnd_compact (text : Text) : trimEnd (compact text) = compact (trimEnd text) := by
  induction text with
  | nil => rfl
  | cons c rest inductionHypothesis =>
    cases blank : allBlank (c :: rest) with
    | true =>
      have blankCompact := (allBlank_compact (c :: rest)).trans blank
      rw [(trimEnd_eq_nil_iff _).mpr blankCompact, (trimEnd_eq_nil_iff _).mpr blank]
      rfl
    | false =>
      have content : allBlank (c :: compact rest) = false := by
        rw [allBlank_cons, allBlank_compact, ← allBlank_cons, blank]
      rw [compact_cons, trimEnd_settle content, inductionHypothesis, trimEnd_cons blank,
        compact_cons]

theorem trim_compact (text : Text) : trim (compact text) = compact (trim text) := by
  rw [trim, trimStart_compact, trimEnd_compact, trim]

/-! ### Compaction line by line -/

/-- A change of lines that leaves blank lines blank and does not see the white space at the ends of
lines may come before or behind compaction. -/
theorem compact_joinLines_map_compact {change : Text → Text}
    (whole : ∀ line, '\n' ∉ line → '\n' ∉ change line)
    (trimmed : ∀ line, change (trimEnd line) = change line) (empty : trimEnd (change []) = [])
    (text : Text) :
    compact (joinLines ((lines (compact text)).map change)) =
      compact (joinLines ((lines text).map change)) := by
  have linewise (line rest : Text) (wholeLine : '\n' ∉ line) :
      compact (joinLines ((lines (line ++ '\n' :: rest)).map change)) =
        trimEnd (change line) ++
          settle '\n' (compact (joinLines ((lines rest).map change))) := by
    have nonempty : (lines rest).map change ≠ [] := mt List.map_eq_nil_iff.mp (lines_ne_nil rest)
    rw [lines_append_newline, lines_of_notMem wholeLine, List.singleton_append, List.map_cons,
      joinLines_cons _ _ nonempty, compact_line (whole line wholeLine)]
  exact @compact_rewrite_compact (fun text => joinLines ((lines text).map change))
    (fun line => trimEnd (change line)) linewise (fun line => congrArg trimEnd (trimmed line))
    empty text

/-! ### The shared indentation -/

theorem contentLines_newline (rest : Text) :
    contentLines (lines ('\n' :: rest)) = contentLines (lines rest) := by
  rw [lines_newline, contentLines_cons_of_blank rfl]

theorem contentLines_settle_newline (kept : Text) :
    contentLines (lines (settle '\n' kept)) = contentLines (lines kept) := by
  by_cases idle : Idle '\n' kept
  · rw [settle_of_idle idle]
  · rw [settle_of_not_idle idle, contentLines_newline]

theorem map_trimEnd_contentLines_compact (text : Text) :
    (contentLines (lines (compact text))).map trimEnd =
      (contentLines (lines text)).map trimEnd := by
  induction text using lineInduction with
  | last tail whole => rw [compact_of_notMem whole]
  | line line rest whole inductionHypothesis =>
    obtain ⟨behind, settled⟩ := List.head?_eq_some_iff.mp (head?_settle_newline (compact rest))
    have same : contentLines (lines behind) = contentLines (lines (compact rest)) := by
      rw [← contentLines_newline, ← settled, contentLines_settle_newline]
    rw [compact_line whole, settled, lines_append_newline, lines_of_notMem (notMem_trimEnd whole),
      contentLines_append, List.map_append, map_trimEnd_contentLines_line, same,
      inductionHypothesis, lines_append_newline, lines_of_notMem whole, contentLines_append,
      List.map_append]

theorem sharedIndentation_compact {text : Text} (content : HasContent text) :
    sharedIndentation (lines (trim (compact text))) = sharedIndentation (lines (trim text)) := by
  have contentCompact : HasContent (compact text) := by
    rwa [hasContent_iff, allBlank_compact, ← hasContent_iff]
  obtain ⟨first, rest, cut⟩ := exists_contentLines content
  obtain ⟨first', rest', cut'⟩ := exists_contentLines contentCompact
  have same := map_trimEnd_contentLines_compact text
  rw [cut, cut', List.map_cons, List.map_cons] at same
  rw [sharedIndentation_trim cut, sharedIndentation_trim cut']
  exact smallestIndentation_congr
    (fun line member => allBlank_of_mem_cut cut' (List.mem_cons_of_mem first' member))
    (fun line member => allBlank_of_mem_cut cut (List.mem_cons_of_mem first member))
    (List.cons.inj same).2

/-! ### Reindenting behind compaction -/

section Lead

variable {lead : Text} (blank : BlankLine lead)
include blank

theorem compact_reindent_compact (text : Text) :
    compact (reindent (compact text) lead) = compact (reindent text lead) := by
  cases empty : allBlank text with
  | true =>
    have same := (allBlank_compact text).trans empty
    rw [reindent, if_pos same, reindent, if_pos empty, compact_compact]
  | false =>
    have content := (hasContent_iff text).mpr empty
    rw [reindent_of_content ((allBlank_compact text).trans empty), reindent_of_content empty, body,
      body, sharedIndentation_compact content, trim_compact, List.map_map, List.map_map]
    refine compact_joinLines_map_compact ?_ ?_ ?_ (trim text)
    · exact fun line whole =>
        List.not_mem_append blank.1 (notMem_unindent (notMem_trimEnd whole) _)
    · intro line
      rw [Function.comp_apply, trimEnd_trimEnd]
      rfl
    · rw [Function.comp_apply, trimEnd_eq_nil_iff, allBlank_append, allBlank_unindent, blank.2]
      rfl

theorem compact_block_compact (text : Text) :
    compact (block (compact text) lead) = compact (block text lead) := by
  rw [block, allBlank_compact, block]
  split
  · rfl
  · exact compact_append_congr (compact_reindent_compact blank text) rfl

end Lead

end Scaffold.Text

namespace Scaffold.Code

/-- A snippet that is compacted on the way in leaves nothing else behind. -/
theorem Buffer.Agree.snippet_compact (buffer : Buffer) (content : Text) :
    Buffer.Agree (buffer.snippet (Text.compact content)) (buffer.snippet content) := by
  have blank : Text.BlankLine buffer.margin := buffer.indent.blankLine_repeated buffer.level
  rw [Buffer.snippet, Buffer.snippet, Move.reindented_eq_raw, Move.reindented_eq_raw]
  exact ⟨rfl, rfl, Text.compact_append_congr rfl (Text.compact_block_compact blank content)⟩

/-- Compacting a text first makes no difference to what is left of it when it is reindented with a
lead of white space and then compacted. So a snippet may be compacted before it goes into a buffer,
whatever comes behind it. -/
theorem compact_reindent_commute :
    (∀ text lead : Text, Text.BlankLine lead →
      Text.compact (Text.reindent (Text.compact text) lead) =
        Text.compact (Text.reindent text lead)) ∧
    ∀ (buffer : Buffer) (content : Text) (later : List Step),
      (Step.runAll later (buffer.snippet (Text.compact content))).build =
        (Step.runAll later (buffer.snippet content)).build := by
  refine ⟨fun text lead blank => Text.compact_reindent_compact blank text,
    fun buffer content later => ?_⟩
  rw [Step.runAll_eq, Step.runAll_eq]
  exact ((Buffer.Agree.snippet_compact buffer content).run (Step.movesAll later)).built

/-- A block whose blank lines are longer than its indentation, behind a tab. -/
theorem compact_reindent_commute_tab :
    Text.BlankLine ['\t'] ∧
      Text.compact (Text.reindent (Text.compact " a \n\t \n      \n\n    b \n  c".toList) ['\t']) =
        "\ta\n\n\t  b\n\tc".toList := by
  have blank : Text.BlankLine ['\t'] := ⟨by decide, by decide⟩
  exact ⟨blank, (compact_reindent_commute.1 _ _ blank).trans (by decide)⟩

end Scaffold.Code
