/-
This file proves that starting a run further in moves everything it writes to the
right by the same margin. Two runs of the same moves are compared line by line:
the one that starts further in writes the lines of the other with the margin in
front, apart from blank lines, which it leaves empty and which compaction empties.

The levels of the two runs stay apart by the same number as long as neither run
goes out at the outermost level, where the saturation of the level would bring
them together.
-/

import Mathlib.Data.List.Forall2
import Scaffold.Proofs.Moves

namespace Scaffold.Code

/-! ### The text of an indentation -/

theorem Indent.repeated_add (indent : Indent) (first second : Nat) :
    indent.repeated (first + second) = indent.repeated first ++ indent.repeated second := by
  rw [Indent.repeated, ← List.replicate_append_replicate, List.flatten_append]
  rfl

theorem Indent.blankLine_unit (indent : Indent) : Text.BlankLine indent.unit := by
  cases indent with
  | tab => exact ⟨by decide, by decide⟩
  | spaces width => exact Text.blankLine_replicate _

theorem Indent.blankLine_repeated (indent : Indent) (level : Nat) :
    Text.BlankLine (indent.repeated level) := by
  obtain ⟨whole, blank⟩ := indent.blankLine_unit
  have inUnit (c : Char) (member : c ∈ indent.repeated level) : c ∈ indent.unit := by
    obtain ⟨unit, copy, inside⟩ := List.mem_flatten.mp member
    exact List.eq_of_mem_replicate copy ▸ inside
  exact ⟨fun member => whole (inUnit _ member),
    List.all_eq_true.mpr fun c member => List.all_eq_true.mp blank c (inUnit c member)⟩

namespace Move

/-! ### Moves that write whole lines -/

/-- A move that adds whole lines, each with its indentation: it is not raw, and what it puts on one
line has no newline. -/
def Tidy : Move → Prop
  | .line content => '\n' ∉ content
  | .raw _ => False
  | .comment marker _ => '\n' ∉ marker
  | _ => True

instance decidableTidy : (move : Move) → Decidable move.Tidy
  | .line content => inferInstanceAs (Decidable ('\n' ∉ content))
  | .comment marker _ => inferInstanceAs (Decidable ('\n' ∉ marker))
  | .raw _ => inferInstanceAs (Decidable False)
  | .blank | .indent | .dedent | .snippet _ => inferInstanceAs (Decidable True)

/-- The lines that a tidy move adds at a level. -/
def lines (indent : Indent) (level : Nat) : Move → List Text
  | .line content => [indent.repeated level ++ content]
  | .blank => [[]]
  | .raw _ => []
  | .indent => []
  | .dedent => []
  | .comment marker content => Text.blockLines content (indent.repeated level ++ marker)
  | .snippet content => Text.blockLines content (indent.repeated level)

/-- The lines that tidy moves add when made in order. -/
def linesAll (indent : Indent) : Nat → List Move → List Text
  | _, [] => []
  | before, move :: rest => move.lines indent before ++ linesAll indent (move.level before) rest

theorem written_eq_terminated (indent : Indent) (level : Nat) {move : Move} (tidy : move.Tidy) :
    move.written indent level = Text.terminated (move.lines indent level) := by
  cases move with
  | raw content => exact absurd tidy id
  | comment marker content => exact Text.block_eq_terminated content _
  | snippet content => exact Text.block_eq_terminated content _
  | line content => rfl
  | blank => rfl
  | indent => rfl
  | dedent => rfl

theorem notMem_of_mem_lines (indent : Indent) (level : Nat) {move : Move} (tidy : move.Tidy)
    (line : Text) (member : line ∈ move.lines indent level) : '\n' ∉ line := by
  have margin := (indent.blankLine_repeated level).1
  cases move with
  | line content =>
    rw [List.mem_singleton.mp member]
    exact List.not_mem_append margin tidy
  | blank =>
    rw [List.mem_singleton.mp member]
    exact List.not_mem_nil
  | comment marker content =>
    exact Text.notMem_of_mem_blockLines content (List.not_mem_append margin tidy) line member
  | snippet content => exact Text.notMem_of_mem_blockLines content margin line member
  | raw content => exact absurd member List.not_mem_nil
  | indent => exact absurd member List.not_mem_nil
  | dedent => exact absurd member List.not_mem_nil

theorem writtenAll_eq_terminated (indent : Indent) (level : Nat) (moves : List Move)
    (tidy : ∀ move ∈ moves, move.Tidy) :
    writtenAll indent level moves = Text.terminated (linesAll indent level moves) := by
  induction moves generalizing level with
  | nil => rfl
  | cons move rest inductionHypothesis =>
    obtain ⟨tidyMove, tidyRest⟩ := List.forall_mem_cons.mp tidy
    rw [writtenAll, linesAll, written_eq_terminated indent level tidyMove,
      inductionHypothesis _ tidyRest, Text.terminated_append]

theorem notMem_of_mem_linesAll (indent : Indent) (level : Nat) (moves : List Move)
    (tidy : ∀ move ∈ moves, move.Tidy) (line : Text)
    (member : line ∈ linesAll indent level moves) : '\n' ∉ line := by
  induction moves generalizing level with
  | nil => exact absurd member List.not_mem_nil
  | cons move rest inductionHypothesis =>
    obtain ⟨tidyMove, tidyRest⟩ := List.forall_mem_cons.mp tidy
    rcases List.mem_append.mp member with here | later
    · exact notMem_of_mem_lines indent level tidyMove line here
    · exact inductionHypothesis _ tidyRest later

/-! ### Levels that stay apart -/

/-- No move of the list goes out at the outermost level when they start at the given one. -/
def Grounded : Nat → List Move → Prop
  | _, [] => True
  | before, move :: rest => (move = .dedent → before ≠ 0) ∧ Grounded (move.level before) rest

instance decidableGrounded : (level : Nat) → (moves : List Move) → Decidable (Grounded level moves)
  | _, [] => inferInstanceAs (Decidable True)
  | before, move :: rest =>
    have := decidableGrounded (move.level before) rest
    inferInstanceAs (Decidable (_ ∧ _))

theorem level_add (before shift : Nat) (move : Move) (grounded : move = .dedent → before ≠ 0) :
    move.level (before + shift) = move.level before + shift := by
  cases move with
  | dedent =>
    have positive := grounded rfl
    show before + shift - 1 = before - 1 + shift
    omega
  | indent => exact Nat.add_right_comm before shift 1
  | line content => rfl
  | blank => rfl
  | raw content => rfl
  | comment marker content => rfl
  | snippet content => rfl

theorem grounded_append (level : Nat) (first second : List Move) :
    Grounded level (first ++ second) ↔
      Grounded level first ∧ Grounded (levelAfter level first) second := by
  induction first generalizing level with
  | nil => exact ⟨fun grounded => ⟨trivial, grounded⟩, fun both => both.2⟩
  | cons move rest inductionHypothesis =>
    rw [List.cons_append, Grounded, Grounded, inductionHypothesis, and_assoc]
    rfl

theorem levelAfter_add (before shift : Nat) (moves : List Move)
    (grounded : Grounded before moves) :
    levelAfter (before + shift) moves = levelAfter before moves + shift := by
  induction moves generalizing before with
  | nil => rfl
  | cons move rest inductionHypothesis =>
    obtain ⟨here, later⟩ := grounded
    show levelAfter (move.level (before + shift)) rest =
      levelAfter (move.level before) rest + shift
    rw [level_add before shift move here, inductionHypothesis _ later]

/-! ### Lines that move to the right -/

/-- Further in, a move adds its lines with the margin in front. Only an empty line gets none, which
shows no more when the ends of the lines are trimmed. -/
theorem map_trimEnd_lines_add (indent : Indent) (level shift : Nat) (move : Move) :
    (move.lines indent (level + shift)).map Text.trimEnd =
      ((move.lines indent level).map (indent.repeated shift ++ ·)).map Text.trimEnd := by
  have margin : indent.repeated (level + shift) =
      indent.repeated shift ++ indent.repeated level := by
    rw [Nat.add_comm, Indent.repeated_add]
  cases move with
  | line content =>
    refine congrArg (List.map Text.trimEnd) ?_
    rw [lines, lines, margin, List.append_assoc]
    rfl
  | blank =>
    refine congrArg (fun line => [line]) ?_
    show Text.trimEnd [] = Text.trimEnd (indent.repeated shift ++ [])
    rw [List.append_nil, (Text.trimEnd_eq_nil_iff _).mpr (indent.blankLine_repeated shift).2]
    rfl
  | comment marker content =>
    refine congrArg (List.map Text.trimEnd) ?_
    rw [lines, lines, margin, List.append_assoc, Text.blockLines_append]
  | snippet content =>
    refine congrArg (List.map Text.trimEnd) ?_
    rw [lines, lines, margin, Text.blockLines_append]
  | raw content => rfl
  | indent => rfl
  | dedent => rfl

theorem map_trimEnd_linesAll_add (indent : Indent) (level shift : Nat) (moves : List Move)
    (grounded : Grounded level moves) :
    (linesAll indent (level + shift) moves).map Text.trimEnd =
      ((linesAll indent level moves).map (indent.repeated shift ++ ·)).map Text.trimEnd := by
  induction moves generalizing level with
  | nil => rfl
  | cons move rest inductionHypothesis =>
    obtain ⟨here, later⟩ := grounded
    rw [linesAll, linesAll, List.map_append, List.map_append, List.map_append,
      map_trimEnd_lines_add, level_add level shift move here, inductionHypothesis _ later]

/-- What moves write further in is, after compaction, what they write with the margin in front of
every line. -/
theorem compact_writtenAll_add (indent : Indent) (level shift : Nat) (moves : List Move)
    (tidy : ∀ move ∈ moves, move.Tidy) (grounded : Grounded level moves) :
    Text.compact (writtenAll indent (level + shift) moves) =
      Text.compact (Text.prefixLines (indent.repeated shift) (writtenAll indent level moves)) := by
  have whole := notMem_of_mem_linesAll indent level moves tidy
  rw [writtenAll_eq_terminated indent _ moves tidy, writtenAll_eq_terminated indent _ moves tidy,
    Text.prefixLines_terminated _ _ whole]
  refine Text.compact_terminated_congr _ _ (notMem_of_mem_linesAll indent _ moves tidy) ?_
    (map_trimEnd_linesAll_add indent level shift moves grounded)
  intro line member
  obtain ⟨inner, source, rfl⟩ := List.mem_map.mp member
  exact List.not_mem_append (indent.blankLine_repeated shift).1 (whole inner source)

end Move

/-! ### Runs further in -/

section

variable (indent : Indent) (level shift : Nat) {steps : List Step}
variable (grounded : Move.Grounded level (Step.movesAll steps))
include grounded

/-- However far two runs have come, the one that started further in is still as much further in. -/
theorem level_run_add {done : List Move} (front : done <+: Step.movesAll steps) :
    (Move.run done { indent, level := level + shift }).level =
      (Move.run done { indent, level }).level + shift := by
  obtain ⟨rest, split⟩ := front
  rw [← split] at grounded
  have groundedDone := ((Move.grounded_append level done rest).mp grounded).1
  rw [Move.level_run, Move.level_run]
  exact Move.levelAfter_add level shift done groundedDone

/-- The marks of the two runs go side by side. -/
theorem forall₂_marksAll_add :
    List.Forall₂ (fun further mark => further.2.level = mark.2.level + shift)
      (Step.marksAll steps { indent, level := level + shift })
      (Step.marksAll steps { indent, level }) := by
  rw [Step.marksAll_eq, Step.marksAll_eq, List.forall₂_map_left_iff, List.forall₂_map_right_iff,
    List.forall₂_same]
  exact fun stop member =>
    level_run_add indent level shift grounded (Step.prefix_of_mem_stopsAll steps stop member)

end

/-- Steps that write whole lines and never go out at the outermost level build, further in, what they
write otherwise with the margin in front of every line, compacted. On the way the levels of the two
runs differ by the same number behind every move, and so at the end of every step. -/
theorem build_shifted (indent : Indent) (level shift : Nat) (steps : List Step)
    (tidy : ∀ move ∈ Step.movesAll steps, move.Tidy)
    (grounded : Move.Grounded level (Step.movesAll steps)) :
    (Step.runAll steps { indent, level := level + shift }).build =
        Text.compact (Text.prefixLines (indent.repeated shift)
          (Step.runAll steps { indent, level }).text) ∧
      (∀ done : List Move, done <+: Step.movesAll steps →
        (Move.run done { indent, level := level + shift }).level =
          (Move.run done { indent, level }).level + shift) ∧
      List.Forall₂ (fun further mark => further.2.level = mark.2.level + shift)
        (Step.marksAll steps { indent, level := level + shift })
        (Step.marksAll steps { indent, level }) := by
  refine ⟨?_, fun done front => level_run_add indent level shift grounded front,
    forall₂_marksAll_add indent level shift grounded⟩
  rw [Step.runAll_eq, Step.runAll_eq, Buffer.build, Move.text_run, Move.text_run, List.nil_append,
    List.nil_append]
  exact Move.compact_writtenAll_add indent level shift _ tidy grounded

/-- From the first level on, two levels further in: a comment, blank lines and a block. -/
theorem build_shifted_block :
    let steps : List Step :=
      [.comment ['#'] ['a', '\n', '\n', ' ', 'b'], .blank, .dedent,
        .block ['d', 'o'] ['o', 'd'] [.line [], .when true [.snippet ['x', '\n', ' ', 'y']]]]
    (∀ move ∈ Step.movesAll steps, move.Tidy) ∧ Move.Grounded 1 (Step.movesAll steps) ∧
    (Step.runAll steps { indent := .four, level := 1 + 2 }).build =
      Text.compact (Text.prefixLines (Indent.four.repeated 2)
        (Step.runAll steps { indent := .four, level := 1 }).text) ∧
    (Step.marksAll steps { indent := .four, level := 1 }).map (fun mark => mark.2.level) =
      [1, 1, 0, 1, 1, 1, 0] ∧
    List.Forall₂ (fun further mark => further.2.level = mark.2.level + 2)
      (Step.marksAll steps { indent := .four, level := 1 + 2 })
      (Step.marksAll steps { indent := .four, level := 1 }) := by
  intro steps
  have tidy : ∀ move ∈ Step.movesAll steps, move.Tidy := by decide
  have grounded : Move.Grounded 1 (Step.movesAll steps) := by decide
  obtain ⟨built, -, levels⟩ := build_shifted .four 1 2 steps tidy grounded
  exact ⟨tidy, grounded, built, rfl, levels⟩

end Scaffold.Code
