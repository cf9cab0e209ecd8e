/-
This file moves a hand-indented block of text to a new indentation.

The first line of a block usually starts right behind an opening quote, so the
amount to take off is measured on the lines after it. What a line is indented
beyond that amount stays.

Reindenting falls in two: what is left of the lines of a block when its shared
indentation is taken off, which depends on the block alone, and what is put in front
of them. A block whose first and last lines start at column zero has nothing to take
off.
-/

import Scaffold.Text.Compact

namespace Scaffold.Text

/-- The number of blank characters at the start of a line. -/
def indentation (line : Text) : Nat :=
  (line.takeWhile isBlank).length

/-- The smallest indentation among the lines after the first that are not blank; zero if all are. -/
def sharedIndentation (block : List Text) : Nat :=
  (((block.drop 1).filter fun line => !allBlank line).map indentation).min?.getD 0

/-- Takes `width` spaces off the start of a line that has so many, and nothing off any other. Only
the space character counts: a tab is never taken off. -/
def unindent (width : Nat) (line : Text) : Text :=
  if List.replicate width ' ' <+: line then line.drop width else line

/-- Strips the shared indentation of a block and puts `lead` in front of every line, blank ones
included. A text without any content is left alone. -/
def reindent (text lead : Text) : Text :=
  if allBlank text then text
  else
    let block := lines (trim text)
    let width := sharedIndentation block
    joinLines (block.map fun line => lead ++ unindent width (trimEnd line))

/-! ### What is left of the lines -/

/-- The lines of a block without its shared indentation and without the blanks at their ends. -/
def body (text : Text) : List Text :=
  (lines (trim text)).map fun line =>
    unindent (sharedIndentation (lines (trim text))) (trimEnd line)

theorem reindent_of_content {text : Text} (content : allBlank text = false) (lead : Text) :
    reindent text lead = joinLines ((body text).map (lead ++ ·)) := by
  rw [reindent, content, if_neg Bool.false_ne_true, body, List.map_map]
  rfl

theorem body_ne_nil (text : Text) : body text ≠ [] := by
  intro empty
  exact lines_ne_nil (trim text) (List.map_eq_nil_iff.mp empty)

theorem notMem_unindent {line : Text} (whole : '\n' ∉ line) (width : Nat) :
    '\n' ∉ unindent width line := by
  rw [unindent]
  split
  · exact fun member => whole (List.mem_of_mem_drop member)
  · exact whole

theorem notMem_of_mem_body (text line : Text) (member : line ∈ body text) : '\n' ∉ line := by
  obtain ⟨source, cut, rfl⟩ := List.mem_map.mp member
  exact notMem_unindent (notMem_trimEnd (notMem_of_mem_lines cut)) _

/-! ### Blocks as lines -/

/-- What a hand-indented block adds to a text: its lines with a newline behind, or nothing. -/
def block (content lead : Text) : Text :=
  if allBlank content then [] else reindent content lead ++ ['\n']

/-- The lines that a block adds behind a lead; none if it is blank. -/
def blockLines (content lead : Text) : List Text :=
  if allBlank content then [] else (body content).map (lead ++ ·)

theorem block_eq_terminated (content lead : Text) :
    block content lead = terminated (blockLines content lead) := by
  cases blank : allBlank content with
  | true => rw [block, blockLines, blank, if_pos rfl, if_pos rfl, terminated]
  | false =>
    have nonempty : (body content).map (lead ++ ·) ≠ [] := fun empty =>
      body_ne_nil content (List.map_eq_nil_iff.mp empty)
    rw [block, blockLines, blank, if_neg Bool.false_ne_true, if_neg Bool.false_ne_true,
      reindent_of_content blank, terminated_eq_joinLines _ nonempty]

theorem notMem_of_mem_blockLines (content : Text) {lead : Text} (whole : '\n' ∉ lead)
    (line : Text) (member : line ∈ blockLines content lead) : '\n' ∉ line := by
  rw [blockLines] at member
  split at member
  · exact absurd member List.not_mem_nil
  · obtain ⟨inner, inBody, rfl⟩ := List.mem_map.mp member
    exact List.not_mem_append whole (notMem_of_mem_body content inner inBody)

/-- A longer lead moves the lines of a block to the right. -/
theorem blockLines_append (content front lead : Text) :
    blockLines content (front ++ lead) = (blockLines content lead).map (front ++ ·) := by
  rw [blockLines, blockLines]
  split
  · rfl
  · rw [List.map_map]
    exact List.map_congr_left fun line _ => List.append_assoc front lead line

/-! ### Blocks at column zero -/

/-- A text that starts with something other than white space. -/
def Flush (text : Text) : Prop :=
  text.head?.map isBlank = some false

instance (text : Text) : Decidable (Flush text) :=
  inferInstanceAs (Decidable (_ = _))

theorem Flush.exists_cons {text : Text} (flush : Flush text) :
    ∃ c rest, text = c :: rest ∧ isBlank c = false := by
  obtain ⟨c, head, blank⟩ := Option.map_eq_some_iff.mp flush
  obtain ⟨rest, equal⟩ := List.head?_eq_some_iff.mp head
  exact ⟨c, rest, equal, blank⟩

theorem Flush.append {front : Text} (flush : Flush front) (back : Text) :
    Flush (front ++ back) := by
  obtain ⟨c, rest, rfl, blank⟩ := flush.exists_cons
  exact congrArg some blank

theorem Flush.joinLines {first : Text} (flush : Flush first) (more : List Text) :
    Flush (Text.joinLines (first :: more)) := by
  cases more with
  | nil => exact flush
  | cons next later => exact flush.append _

theorem Flush.not_allBlank {text : Text} (flush : Flush text) : allBlank text = false := by
  obtain ⟨c, rest, rfl, blank⟩ := flush.exists_cons
  rw [allBlank_cons, blank, Bool.false_and]

theorem Flush.trimEnd_ne_nil {text : Text} (flush : Flush text) : trimEnd text ≠ [] := by
  rw [Ne, trimEnd_eq_nil_iff, flush.not_allBlank]
  exact Bool.false_ne_true

theorem Flush.trimEnd {text : Text} (flush : Flush text) : Flush (trimEnd text) := by
  obtain ⟨c, rest, rfl, blank⟩ := flush.exists_cons
  rw [Text.trimEnd, if_neg (by rw [blank]; exact fun both => Bool.false_ne_true both.2)]
  exact congrArg some blank

theorem Flush.trimStart {text : Text} (flush : Flush text) : trimStart text = text := by
  obtain ⟨c, rest, rfl, blank⟩ := flush.exists_cons
  rw [Text.trimStart, List.dropWhile_cons_of_neg (by rw [blank]; exact Bool.false_ne_true)]

theorem Flush.indentation {line : Text} (flush : Flush line) : indentation line = 0 := by
  obtain ⟨c, rest, rfl, blank⟩ := flush.exists_cons
  rw [Text.indentation, List.takeWhile_cons_of_neg (by rw [blank]; exact Bool.false_ne_true),
    List.length_nil]

/-- One line at column zero behind the first leaves nothing to take off. -/
theorem sharedIndentation_of_flush {block : List Text} {line : Text} (member : line ∈ block.drop 1)
    (flush : Flush line) : sharedIndentation block = 0 := by
  have counted : 0 ∈ ((block.drop 1).filter fun line => !allBlank line).map indentation := by
    refine List.mem_map.mpr ⟨line, List.mem_filter.mpr ⟨member, ?_⟩, flush.indentation⟩
    rw [flush.not_allBlank, Bool.not_false]
  exact Nat.le_zero.mp (List.min?_getD_le_of_mem counted)

theorem unindent_zero (line : Text) : unindent 0 line = line := by
  rw [unindent, List.replicate_zero, if_pos List.nil_prefix, List.drop_zero]

theorem trim_flush (front last : Text) (flush : Flush front) (flushLast : Flush last) :
    trim (front ++ '\n' :: (last ++ ['\n'])) = front ++ '\n' :: trimEnd last := by
  have ending : Text.trimEnd (last ++ ['\n']) = Text.trimEnd last :=
    trimEnd_append_of_allBlank last (by decide)
  have behind : Text.trimEnd ('\n' :: (last ++ ['\n'])) = '\n' :: Text.trimEnd last := by
    rw [Text.trimEnd, ending, if_neg fun both => flushLast.trimEnd_ne_nil both.1]
  rw [trim, (flush.append _).trimStart,
    trimEnd_append front (by rw [behind]; exact List.cons_ne_nil _ _), behind]

/-- A block from column zero to column zero keeps its lines, but for the blanks at their ends. -/
theorem body_flush (front last : Text) (flush : Flush front) (flushLast : Flush last)
    (whole : '\n' ∉ last) :
    body (front ++ '\n' :: (last ++ ['\n'])) = (lines front ++ [last]).map trimEnd := by
  have cut : lines (trim (front ++ '\n' :: (last ++ ['\n']))) = lines front ++ [trimEnd last] := by
    rw [trim_flush front last flush flushLast, lines_append_newline,
      lines_of_notMem (notMem_trimEnd whole)]
  have member : trimEnd last ∈ (lines front ++ [trimEnd last]).drop 1 := by
    obtain ⟨first, more, equal⟩ := List.exists_cons_of_ne_nil (lines_ne_nil front)
    rw [equal]
    exact List.mem_append_right more List.mem_cons_self
  rw [body, cut, sharedIndentation_of_flush member flushLast.trimEnd]
  simp only [unindent_zero, List.map_append, List.map_cons, List.map_nil, trimEnd_trimEnd]

theorem Flush.head?_ne_newline {text : Text} (flush : Flush text) : text.head? ≠ some '\n' := by
  obtain ⟨c, rest, rfl, blank⟩ := flush.exists_cons
  intro head
  rw [Option.some_inj.mp head] at blank
  exact absurd blank (by decide)

/-- Compaction leaves a text from column zero to column zero in that form, with its last line. -/
theorem exists_compact_flush (first last : Text) (flush : Flush first) (flushLast : Flush last)
    (whole : '\n' ∉ last) :
    ∃ front, Flush front ∧
      compact (first ++ '\n' :: (last ++ ['\n'])) = front ++ '\n' :: (trimEnd last ++ ['\n']) := by
  have ending : compact (last ++ ['\n']) = trimEnd last ++ ['\n'] := compact_line whole []
  have apart : ¬ Idle '\n' (trimEnd last ++ ['\n']) :=
    not_idle_newline (flushLast.trimEnd.append ['\n']).head?_ne_newline
  obtain ⟨c, rest, rfl, blank⟩ := flush.exists_cons
  obtain ⟨front, equal⟩ := exists_foldr_settle rest ('\n' :: (trimEnd last ++ ['\n']))
  refine ⟨c :: front, congrArg some blank, ?_⟩
  rw [compact_append_eq_foldr, compact_cons, ending, settle_of_not_idle apart, List.foldr_cons,
    equal, settle_of_not_idle (not_idle_of_content blank _), List.cons_append]

/-- A block from column zero to column zero gets its lead in front of every line. -/
theorem compact_block_flush (front last lead : Text) (flush : Flush front) (flushLast : Flush last)
    (whole : '\n' ∉ last) (leadWhole : '\n' ∉ lead) :
    compact (block (front ++ '\n' :: (last ++ ['\n'])) lead) =
      compact (prefixLines lead (front ++ '\n' :: (last ++ ['\n']))) := by
  have wholeLine (line : Text) (member : line ∈ lines front ++ [last]) : '\n' ∉ line := by
    rcases List.mem_append.mp member with inFront | isLast
    · exact notMem_of_mem_lines inFront
    · rw [List.mem_singleton.mp isLast]
      exact whole
  have asLines : front ++ '\n' :: (last ++ ['\n']) = terminated (lines front ++ [last]) := by
    rw [terminated_append, terminated_eq_joinLines _ (lines_ne_nil front), joinLines_lines,
      List.append_assoc]
    rfl
  have content : allBlank (front ++ '\n' :: (last ++ ['\n'])) = false :=
    (flush.append _).not_allBlank
  rw [block_eq_terminated, blockLines, content, if_neg Bool.false_ne_true,
    body_flush front last flush flushLast whole, asLines, prefixLines_terminated lead _ wholeLine]
  refine compact_terminated_congr _ _ ?_ ?_ ?_
  · intro line member
    obtain ⟨trimmed, inTrimmed, rfl⟩ := List.mem_map.mp member
    obtain ⟨source, inLines, rfl⟩ := List.mem_map.mp inTrimmed
    exact List.not_mem_append leadWhole (notMem_trimEnd (wholeLine source inLines))
  · intro line member
    obtain ⟨source, inLines, rfl⟩ := List.mem_map.mp member
    exact List.not_mem_append leadWhole (wholeLine source inLines)
  · rw [List.map_map, List.map_map, List.map_map]
    exact List.map_congr_left fun line _ => trimEnd_append_trimEnd lead line

end Scaffold.Text
