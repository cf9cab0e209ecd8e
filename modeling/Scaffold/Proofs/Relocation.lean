/-
This file proves that a block of code may be built on its own and put in its place
afterwards. Built on its own, it starts and ends at column zero, so taking it in as
a snippet strips nothing and puts the margin of its place in front of every line.
Writing it in place moves every line to the right by the same margin. The two
texts differ in blank lines and in when compaction came, and neither shows in what
is built.
-/

import Scaffold.Proofs.Shift

namespace Scaffold.Code

/-! ### The moves of a block -/

theorem tidy_block {header close : Text} {body : List Step} (headerWhole : '\n' ∉ header)
    (closeWhole : '\n' ∉ close) (tidy : ∀ move ∈ Step.movesAll body, move.Tidy) :
    ∀ move ∈ (Step.block header close body).moves, move.Tidy := by
  intro move member
  rw [Step.moves, List.mem_cons, List.mem_cons, List.mem_append, List.mem_cons,
    List.mem_singleton] at member
  rcases member with rfl | rfl | inBody | rfl | rfl
  · exact headerWhole
  · exact trivial
  · exact tidy move inBody
  · exact trivial
  · exact closeWhole

theorem grounded_block (header close : Text) {body : List Step}
    (grounded : Move.Grounded 1 (Step.movesAll body))
    (ends : Move.levelAfter 1 (Step.movesAll body) = 1) :
    Move.Grounded 0 (Step.block header close body).moves := by
  refine ⟨nofun, nofun, (Move.grounded_append 1 _ _).mpr ⟨grounded, ?_⟩⟩
  rw [ends]
  exact ⟨fun _ => Nat.one_ne_zero, nofun, trivial⟩

/-- A block at the outermost level whose body comes back to its first level: the header, the text of
the body and the close, header and close at column zero. -/
theorem writtenAll_block (indent : Indent) (header close : Text) (body : List Step)
    (ends : Move.levelAfter 1 (Step.movesAll body) = 1) :
    Move.writtenAll indent 0 (Step.block header close body).moves =
      header ++ '\n' :: (Move.writtenAll indent 1 (Step.movesAll body) ++ (close ++ ['\n'])) := by
  have behind : Move.writtenAll indent 1 [.dedent, .line close] = close ++ ['\n'] :=
    List.append_nil _
  rw [Step.moves]
  show (header ++ ['\n']) ++
    Move.writtenAll indent 1 (Step.movesAll body ++ [.dedent, .line close]) = _
  rw [Move.writtenAll_append, ends, behind, List.append_assoc]
  rfl

/-- Whole lines behind a header end in a newline, so the close stands on a line of its own. -/
theorem exists_writtenAll_block (indent : Indent) {header : Text} (close : Text)
    {body : List Step} (flush : Text.Flush header) (tidy : ∀ move ∈ Step.movesAll body, move.Tidy)
    (ends : Move.levelAfter 1 (Step.movesAll body) = 1) :
    ∃ first, Text.Flush first ∧
      Move.writtenAll indent 0 (Step.block header close body).moves =
        first ++ '\n' :: (close ++ ['\n']) := by
  have above : header ++ '\n' :: Move.writtenAll indent 1 (Step.movesAll body) =
      Text.terminated (header :: Move.linesAll indent 1 (Step.movesAll body)) := by
    rw [Move.writtenAll_eq_terminated indent 1 _ tidy, Text.terminated]
  refine ⟨Text.joinLines (header :: Move.linesAll indent 1 (Step.movesAll body)),
    flush.joinLines _, ?_⟩
  rw [writtenAll_block indent header close body ends, ← List.cons_append, ← List.append_assoc,
    above, Text.terminated_eq_joinLines _ (List.cons_ne_nil _ _), List.append_assoc]
  rfl

/-! ### Out of line and in place -/

/-- A block built at the outermost level adds as a snippet, after compaction, what it writes itself at
the level of the snippet. -/
theorem compact_block_writtenAll (indent : Indent) (level : Nat) {header close : Text}
    {body : List Step} (headerWhole : '\n' ∉ header) (closeWhole : '\n' ∉ close)
    (headerFlush : Text.Flush header) (closeFlush : Text.Flush close)
    (tidy : ∀ move ∈ Step.movesAll body, move.Tidy)
    (grounded : Move.Grounded 1 (Step.movesAll body))
    (ends : Move.levelAfter 1 (Step.movesAll body) = 1) :
    Text.compact (Text.block
        (Text.compact (Move.writtenAll indent 0 (Step.block header close body).moves))
        (indent.repeated level)) =
      Text.compact (Move.writtenAll indent level (Step.block header close body).moves) := by
  have margin := indent.blankLine_repeated level
  obtain ⟨first, firstFlush, written⟩ :=
    exists_writtenAll_block indent close headerFlush tidy ends
  obtain ⟨front, frontFlush, compacted⟩ :=
    Text.exists_compact_flush first close firstFlush closeFlush closeWhole
  have shifted := Move.compact_writtenAll_add indent 0 level (Step.block header close body).moves
    (tidy_block headerWhole closeWhole tidy) (grounded_block header close grounded ends)
  rw [Nat.zero_add] at shifted
  rw [shifted, ← Text.compact_prefixLines_compact margin, written, compacted]
  exact Text.compact_block_flush front _ _ frontFlush closeFlush.trimEnd
    (Text.notMem_trimEnd closeWhole) margin.1

/-- A block whose header and close start with content, and whose body writes whole lines, never goes
out at the outermost level and comes back to its own level, may be built on its own and taken into a
buffer as a snippet: what the buffer builds is what it builds with the block written in place. -/
theorem build_snippet_block (buffer : Buffer) (header close : Text) (body : List Step)
    (headerWhole : '\n' ∉ header) (closeWhole : '\n' ∉ close) (headerFlush : Text.Flush header)
    (closeFlush : Text.Flush close) (tidy : ∀ move ∈ Step.movesAll body, move.Tidy)
    (grounded : Move.Grounded 1 (Step.movesAll body))
    (ends : (Step.runAll body { indent := buffer.indent, level := 1 }).level = 1) :
    (buffer.snippet ((Step.block header close body).run { indent := buffer.indent }).build).build =
      ((Step.block header close body).run buffer).build := by
  rw [Step.runAll_eq, Move.level_run] at ends
  have alone : ((Step.block header close body).run { indent := buffer.indent }).build =
      Text.compact (Move.writtenAll buffer.indent 0 (Step.block header close body).moves) := by
    rw [Step.run_eq, Buffer.build, Move.text_run, List.nil_append]
  have taken (content : Text) : (buffer.snippet content).text =
      buffer.text ++ Text.block content (buffer.indent.repeated buffer.level) :=
    congrArg Buffer.text (Move.act_eq (.snippet content) buffer)
  rw [alone, Step.run_eq, Buffer.build, Buffer.build, taken, Move.text_run]
  exact Text.compact_append_congr rfl (compact_block_writtenAll buffer.indent buffer.level
    headerWhole closeWhole headerFlush closeFlush tidy grounded ends)

/-- A block whose body goes out for one line and comes back, behind a line that is not finished. -/
theorem build_snippet_block_label :
    (Buffer.snippet ⟨.tab, 2, ['x', ' ']⟩
        ((Step.block ['d', 'o', ' '] ['o', 'd', ';', ' ']
          [.comment ['#', ' '] ['a', '\n', '\n', ' ', 'b'], .blank, .blank, .dedent, .line ['l', ':'],
            .indent, .each [[.snippet ['y', '\n', ' ', 'z']], [.line []]]]).run
          { indent := .tab }).build).build =
      ((Step.block ['d', 'o', ' '] ['o', 'd', ';', ' ']
        [.comment ['#', ' '] ['a', '\n', '\n', ' ', 'b'], .blank, .blank, .dedent, .line ['l', ':'],
          .indent, .each [[.snippet ['y', '\n', ' ', 'z']], [.line []]]]).run
        ⟨.tab, 2, ['x', ' ']⟩).build :=
  build_snippet_block ⟨.tab, 2, ['x', ' ']⟩ _ _ _ (by decide) (by decide) (by decide) (by decide)
    (by decide) (by decide) (by decide)

end Scaffold.Code
