/-
This file compacts the white space of a finished text: no line ends in white
space, and no two blank lines stand next to each other.

Both passes run from the end of the text to its start, because whether a
character goes depends only on what is left of the text behind it. So compaction is
one fold from the right: each character meets the compacted text behind it and either
stands in front of it or is dropped, and nothing has to be remembered about the text
that was there before compaction.

That makes compaction a congruence: a part of a text may be compacted first, on
either side of a seam, and the whole comes out the same. Blanks at the end of the
left part stay until a newline arrives behind them, and newline runs on the two
sides of the seam meet again in the fold.

Last comes a margin in front of every line of a text. A margin of white space is lost
again on blank lines, so blank lines stay blank lines, and it does not matter whether
the text was compacted before it got its margin.
-/

import Scaffold.Text.Lines

namespace Scaffold.Text

/-- Drops the white space right before every newline. The unterminated last line keeps its own. -/
def stripLines : Text → Text
  | [] => []
  | c :: rest =>
    let kept := stripLines rest
    if isBlank c ∧ c ≠ '\n' ∧ kept.head? = some '\n' then kept else c :: kept

/-- Cuts every run of three or more newlines down to two. -/
def collapseNewlines : Text → Text
  | [] => []
  | c :: rest =>
    let kept := collapseNewlines rest
    if c = '\n' ∧ ['\n', '\n'] <+: kept then kept else c :: kept

/-- Removes the white space at the end of every line, then collapses runs of blank lines. -/
def compact (text : Text) : Text :=
  collapseNewlines (stripLines text)

/-! ### Compaction as a fold -/

/-- Whether a character says nothing new in front of a compacted text: a blank at the end of a line,
or a third newline in a row. -/
def Idle (c : Char) (kept : Text) : Prop :=
  (isBlank c ∧ c ≠ '\n' ∧ kept.head? = some '\n') ∨ (c = '\n' ∧ ['\n', '\n'] <+: kept)

instance (c : Char) (kept : Text) : Decidable (Idle c kept) :=
  inferInstanceAs (Decidable (_ ∨ _))

/-- Puts a character in front of a compacted text, unless it is idle there. -/
def settle (c : Char) (kept : Text) : Text :=
  if Idle c kept then kept else c :: kept

theorem settle_of_idle {c : Char} {kept : Text} (idle : Idle c kept) : settle c kept = kept :=
  if_pos idle

theorem settle_of_not_idle {c : Char} {kept : Text} (busy : ¬ Idle c kept) :
    settle c kept = c :: kept :=
  if_neg busy

theorem idle_newline_iff (kept : Text) : Idle '\n' kept ↔ ['\n', '\n'] <+: kept := by
  constructor
  · rintro (⟨_, notNewline, _⟩ | ⟨_, run⟩)
    · exact absurd rfl notNewline
    · exact run
  · exact fun run => Or.inr ⟨rfl, run⟩

theorem idle_iff_of_ne {c : Char} (other : c ≠ '\n') (kept : Text) :
    Idle c kept ↔ isBlank c = true ∧ kept.head? = some '\n' := by
  constructor
  · rintro (⟨blank, _, head⟩ | ⟨newline, _⟩)
    · exact ⟨blank, head⟩
    · exact absurd newline other
  · exact fun both => Or.inl ⟨both.1, other, both.2⟩

/-- The first newline in front of something else is never idle. -/
theorem not_idle_newline {kept : Text} (other : kept.head? ≠ some '\n') : ¬ Idle '\n' kept := by
  rw [idle_newline_iff]
  rintro ⟨tail, rfl⟩
  exact other rfl

theorem not_idle_of_content {c : Char} (content : isBlank c = false) (kept : Text) :
    ¬ Idle c kept := by
  have other : c ≠ '\n' := by
    rintro rfl
    exact absurd content (by decide)
  rw [idle_iff_of_ne other, content]
  exact fun both => Bool.false_ne_true both.1

theorem head?_collapseNewlines (text : Text) : (collapseNewlines text).head? = text.head? := by
  cases text with
  | nil => rfl
  | cons c rest =>
    rw [collapseNewlines]
    split
    · rename_i run
      obtain ⟨newline, tail, equal⟩ := run
      rw [← equal, newline]
      rfl
    · rfl

theorem compact_cons (c : Char) (rest : Text) :
    compact (c :: rest) = settle c (compact rest) := by
  have head : (compact rest).head? = (stripLines rest).head? := head?_collapseNewlines _
  by_cases trailing : isBlank c ∧ c ≠ '\n' ∧ (stripLines rest).head? = some '\n'
  · rw [settle_of_idle (Or.inl (by rwa [head])), compact, stripLines, if_pos trailing, compact]
  · rw [compact, stripLines, if_neg trailing, collapseNewlines]
    by_cases run : c = '\n' ∧ ['\n', '\n'] <+: compact rest
    · rw [settle_of_idle (Or.inr run)]
      exact if_pos run
    · rw [settle_of_not_idle (by rw [Idle, head]; exact not_or.mpr ⟨trailing, run⟩)]
      exact if_neg run

theorem compact_eq_foldr (text : Text) : compact text = text.foldr settle [] := by
  induction text with
  | nil => rfl
  | cons c rest inductionHypothesis => rw [compact_cons, inductionHypothesis, List.foldr_cons]

theorem compact_append_eq_foldr (front back : Text) :
    compact (front ++ back) = front.foldr settle (compact back) := by
  rw [compact_eq_foldr, compact_eq_foldr, List.foldr_append]

/-- Nothing that arrives in front changes what is there already. -/
theorem exists_foldr_settle (text kept : Text) :
    ∃ front, text.foldr settle kept = front ++ kept := by
  induction text with
  | nil => exact ⟨[], rfl⟩
  | cons c rest inductionHypothesis =>
    obtain ⟨front, equal⟩ := inductionHypothesis
    rw [List.foldr_cons, equal]
    by_cases idle : Idle c (front ++ kept)
    · exact ⟨front, settle_of_idle idle⟩
    · exact ⟨c :: front, settle_of_not_idle idle⟩

/-! ### Compacting twice -/

theorem head?_settle_newline (kept : Text) : (settle '\n' kept).head? = some '\n' := by
  by_cases idle : Idle '\n' kept
  · rw [settle_of_idle idle]
    obtain ⟨tail, rfl⟩ := (idle_newline_iff kept).mp idle
    rfl
  · rw [settle_of_not_idle idle, List.head?_cons]

theorem settle_newline_twice (kept : Text) :
    ['\n', '\n'] <+: settle '\n' (settle '\n' kept) := by
  by_cases idle : Idle '\n' (settle '\n' kept)
  · rw [settle_of_idle idle]
    exact (idle_newline_iff _).mp idle
  · rw [settle_of_not_idle idle]
    obtain ⟨tail, equal⟩ := List.head?_eq_some_iff.mp (head?_settle_newline kept)
    exact ⟨tail, by rw [equal]; rfl⟩

/-- What is idle in front of a text is idle in front of whatever the text settles to. -/
theorem Idle.foldr_settle {c : Char} {text : Text} (idle : Idle c text) (kept : Text) :
    Idle c (text.foldr settle kept) := by
  obtain ⟨blank, notNewline, head⟩ | ⟨newline, tail, rfl⟩ := idle
  · obtain ⟨tail, rfl⟩ := List.head?_eq_some_iff.mp head
    exact Or.inl ⟨blank, notNewline, head?_settle_newline _⟩
  · exact Or.inr ⟨newline, settle_newline_twice _⟩

/-- A text settles the same with and without compacting it first, whatever stands behind it. -/
theorem foldr_settle_compact (text kept : Text) :
    (compact text).foldr settle kept = text.foldr settle kept := by
  induction text with
  | nil => rfl
  | cons c rest inductionHypothesis =>
    rw [compact_cons, List.foldr_cons, ← inductionHypothesis]
    by_cases idle : Idle c (compact rest)
    · rw [settle_of_idle idle, settle_of_idle (idle.foldr_settle kept)]
    · rw [settle_of_not_idle idle, List.foldr_cons]

theorem compact_compact (text : Text) : compact (compact text) = compact text := by
  rw [compact_eq_foldr (compact text), foldr_settle_compact, ← compact_eq_foldr]

/-! ### Seams -/

theorem compact_compact_append (front back : Text) :
    compact (compact front ++ back) = compact (front ++ back) := by
  rw [compact_append_eq_foldr, foldr_settle_compact, ← compact_append_eq_foldr]

theorem compact_append_compact (front back : Text) :
    compact (front ++ compact back) = compact (front ++ back) := by
  rw [compact_append_eq_foldr, compact_compact, ← compact_append_eq_foldr]

/-- Texts with one compaction keep one compaction behind any text. -/
theorem compact_append_congr {front front' back back' : Text}
    (fronts : compact front = compact front') (backs : compact back = compact back') :
    compact (front ++ back) = compact (front' ++ back') := by
  rw [← compact_compact_append, ← compact_append_compact, fronts, backs, compact_append_compact,
    compact_compact_append]

/-- Only the newlines at a seam can change what stands in front of it. -/
theorem settle_append (c : Char) {kept back : Text} (nonempty : kept ≠ [])
    (apart : back.head? ≠ some '\n') : settle c (kept ++ back) = settle c kept ++ back := by
  have same : Idle c (kept ++ back) ↔ Idle c kept := by
    obtain ⟨first, rest, rfl⟩ := List.exists_cons_of_ne_nil nonempty
    have run : ['\n'] <+: rest ++ back ↔ ['\n'] <+: rest := by
      cases rest with
      | nil =>
        refine iff_of_false (fun ⟨tail, equal⟩ => apart ?_) (by decide)
        exact List.head?_eq_some_iff.mpr ⟨tail, equal.symm⟩
      | cons second more =>
        rw [List.cons_append, List.cons_prefix_cons, List.cons_prefix_cons]
        exact and_congr_right fun _ => iff_of_true List.nil_prefix List.nil_prefix
    rw [Idle, Idle, List.cons_append, List.head?_cons, List.head?_cons, List.cons_prefix_cons,
      List.cons_prefix_cons, run]
  by_cases idle : Idle c kept
  · rw [settle_of_idle idle, settle_of_idle (same.mpr idle)]
  · rw [settle_of_not_idle idle, settle_of_not_idle (mt same.mp idle), List.cons_append]

theorem settle_ne_nil (c : Char) {kept : Text} (nonempty : kept ≠ []) : settle c kept ≠ [] := by
  by_cases idle : Idle c kept
  · rwa [settle_of_idle idle]
  · rw [settle_of_not_idle idle]
    exact List.cons_ne_nil c kept

theorem foldr_settle_append (text : Text) {kept back : Text} (nonempty : kept ≠ [])
    (apart : back.head? ≠ some '\n') :
    text.foldr settle (kept ++ back) = text.foldr settle kept ++ back ∧
      text.foldr settle kept ≠ [] := by
  induction text with
  | nil => exact ⟨rfl, nonempty⟩
  | cons c rest inductionHypothesis =>
    obtain ⟨same, remains⟩ := inductionHypothesis
    rw [List.foldr_cons, List.foldr_cons, same, settle_append c remains apart]
    exact ⟨rfl, settle_ne_nil c remains⟩

/-- Behind a finished line a text is compacted on its own, unless it starts with a newline. -/
theorem compact_append_of_finished {front back : Text} (finished : front = [] ∨ ['\n'] <:+ front)
    (apart : (compact back).head? ≠ some '\n') :
    compact (front ++ back) = compact front ++ compact back := by
  rcases finished with rfl | ⟨before, rfl⟩
  · rfl
  · rw [List.append_assoc, compact_append_eq_foldr, List.singleton_append, compact_cons,
      settle_of_not_idle (not_idle_newline apart), compact_append_eq_foldr]
    exact (foldr_settle_append before (List.cons_ne_nil '\n' []) apart).1

/-! ### Line by line -/

/-- In front of a newline a line settles to itself without the blanks at its end. -/
theorem foldr_settle_line {line kept : Text} (whole : '\n' ∉ line)
    (newline : kept.head? = some '\n') : line.foldr settle kept = trimEnd line ++ kept := by
  induction line with
  | nil => rfl
  | cons c rest inductionHypothesis =>
    rw [List.mem_cons, not_or] at whole
    rw [List.foldr_cons, inductionHypothesis whole.2, trimEnd]
    by_cases blank : trimEnd rest = [] ∧ isBlank c = true
    · rw [if_pos blank, blank.1, List.nil_append]
      exact settle_of_idle (Or.inl ⟨blank.2, Ne.symm whole.1, newline⟩)
    · rw [if_neg blank]
      refine settle_of_not_idle ?_
      rw [idle_iff_of_ne (Ne.symm whole.1)]
      rintro ⟨blankHere, head⟩
      -- a newline at the head cannot come from the line itself, so nothing of it is left
      cases left : trimEnd rest with
      | nil => exact blank ⟨left, blankHere⟩
      | cons first more =>
        rw [left, List.cons_append, List.head?_cons, Option.some_inj] at head
        have member : first ∈ trimEnd rest := left ▸ List.mem_cons_self
        exact notMem_trimEnd whole.2 (head ▸ member)

theorem compact_line {line : Text} (whole : '\n' ∉ line) (rest : Text) :
    compact (line ++ '\n' :: rest) = trimEnd line ++ settle '\n' (compact rest) := by
  rw [compact_append_eq_foldr, compact_cons,
    foldr_settle_line whole (head?_settle_newline (compact rest))]

/-- An unterminated line stays as it is, with the blanks at its end. -/
theorem compact_of_notMem {tail : Text} (whole : '\n' ∉ tail) : compact tail = tail := by
  induction tail with
  | nil => rfl
  | cons c rest inductionHypothesis =>
    rw [List.mem_cons, not_or] at whole
    rw [compact_cons, inductionHypothesis whole.2]
    refine settle_of_not_idle ?_
    rw [idle_iff_of_ne (Ne.symm whole.1)]
    rintro ⟨_, head⟩
    obtain ⟨more, rfl⟩ := List.head?_eq_some_iff.mp head
    exact whole.2 List.mem_cons_self

/-- A text that is rewritten line by line may be compacted before, if what is shown of a line depends
only on what the line is without the blanks at its end, and nothing is shown of a blank one. -/
theorem compact_rewrite_compact {rewrite shown : Text → Text}
    (linewise : ∀ line rest, '\n' ∉ line → compact (rewrite (line ++ '\n' :: rest)) =
      shown line ++ settle '\n' (compact (rewrite rest)))
    (trimmed : ∀ line, shown (trimEnd line) = shown line) (empty : shown [] = []) (text : Text) :
    compact (rewrite (compact text)) = compact (rewrite text) := by
  induction text using lineInduction with
  | last tail whole => rw [compact_of_notMem whole]
  | line line rest whole inductionHypothesis =>
    have newline (behind : Text) : compact (rewrite ('\n' :: behind)) =
        settle '\n' (compact (rewrite behind)) := by
      have line := linewise [] behind List.not_mem_nil
      rwa [empty] at line
    rw [compact_line whole, linewise line rest whole, ← inductionHypothesis]
    by_cases idle : Idle '\n' (compact rest)
    · -- two newlines are left behind the line, and a third is still idle once they are rewritten
      obtain ⟨tail, run⟩ := (idle_newline_iff _).mp idle
      rw [settle_of_idle idle, ← run, List.cons_append, List.singleton_append,
        linewise _ _ (notMem_trimEnd whole), trimmed, newline ('\n' :: tail), newline tail,
        settle_of_idle ((idle_newline_iff _).mpr (settle_newline_twice _))]
    · rw [settle_of_not_idle idle, linewise _ _ (notMem_trimEnd whole), trimmed]

/-- Only what a line is without the blanks at its end matters to compaction. -/
theorem compact_terminated_congr (cut cut' : List Text) (whole : ∀ line ∈ cut, '\n' ∉ line)
    (whole' : ∀ line ∈ cut', '\n' ∉ line) (same : cut.map trimEnd = cut'.map trimEnd) :
    compact (terminated cut) = compact (terminated cut') := by
  induction cut generalizing cut' with
  | nil => rw [List.map_eq_nil_iff.mp same.symm]
  | cons line rest inductionHypothesis =>
    obtain ⟨line', rest', rfl, sameLine, sameRest⟩ := List.map_eq_cons_iff.mp same.symm
    rw [terminated, terminated, compact_line (whole line List.mem_cons_self),
      compact_line (whole' line' List.mem_cons_self), sameLine,
      inductionHypothesis rest' (fun piece member => whole piece (List.mem_cons_of_mem _ member))
        (fun piece member => whole' piece (List.mem_cons_of_mem _ member)) sameRest.symm]

/-! ### Margins -/

/-- A text with `lead` in front of every line. What stands behind the last newline is a line only if
it is not empty. -/
def prefixLines (lead text : Text) : Text :=
  (wholeLines text).flatMap (lead ++ ·)

theorem prefixLines_line (lead : Text) {line : Text} (whole : '\n' ∉ line) (rest : Text) :
    prefixLines lead (line ++ '\n' :: rest) = (lead ++ line) ++ '\n' :: prefixLines lead rest := by
  rw [prefixLines, wholeLines_append_newline whole, List.flatMap_cons, ← prefixLines,
    List.append_assoc, List.append_assoc, List.append_assoc]
  rfl

theorem prefixLines_terminated (lead : Text) (cut : List Text)
    (whole : ∀ line ∈ cut, '\n' ∉ line) :
    prefixLines lead (terminated cut) = terminated (cut.map (lead ++ ·)) := by
  induction cut with
  | nil => rfl
  | cons line rest inductionHypothesis =>
    obtain ⟨wholeLine, wholeRest⟩ := List.forall_mem_cons.mp whole
    rw [terminated, prefixLines_line lead wholeLine, inductionHypothesis wholeRest, List.map_cons,
      terminated]

section Blank

variable {lead : Text} (blank : BlankLine lead)
include blank

theorem compact_prefixLines_line {line : Text} (whole : '\n' ∉ line) (rest : Text) :
    compact (prefixLines lead (line ++ '\n' :: rest)) =
      trimEnd (lead ++ line) ++ settle '\n' (compact (prefixLines lead rest)) := by
  rw [prefixLines_line lead whole,
    compact_line (List.not_mem_append blank.1 whole)]

/-- A text that gets a blank margin may be compacted before. -/
theorem compact_prefixLines_compact (text : Text) :
    compact (prefixLines lead (compact text)) = compact (prefixLines lead text) := by
  refine compact_rewrite_compact (fun line rest whole => compact_prefixLines_line blank whole rest)
    (trimEnd_append_trimEnd lead) ?_ text
  rw [List.append_nil, (trimEnd_eq_nil_iff lead).mpr blank.2]

end Blank

end Scaffold.Text
