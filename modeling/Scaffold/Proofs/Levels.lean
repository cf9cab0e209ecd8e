/-
This file gives the level at the end of a run in closed form. Going out stops at the
outermost level, so the turns in and out of a run do not simply add up: a turn that
would lead further out is lost, and the run goes on from the outermost level. The level
at the end is the sum of all turns from the first level on, or the largest sum of the
last turns, whichever is larger.

A block whose body goes in as often as out comes back to its own level exactly if the
body never goes out at the outermost level.
-/

import Mathlib.Algebra.Ring.Int.Defs
import Mathlib.Data.List.Infix
import Scaffold.Proofs.Shift

namespace Scaffold.Code

/-! ### Turns in and out -/

/-- The largest sum of the last numbers of a list, all of them and none of them included. -/
def largestSuffix (numbers : List Int) : Int :=
  (numbers.tails.map List.sum).foldr max 0

theorem largestSuffix_cons (number : Int) (rest : List Int) :
    largestSuffix (number :: rest) = max (number + rest.sum) (largestSuffix rest) := by
  rw [largestSuffix, List.tails_cons, List.map_cons, List.foldr_cons, List.sum_cons, largestSuffix]

theorem sum_le_largestSuffix (numbers : List Int) : numbers.sum ≤ largestSuffix numbers := by
  cases numbers with
  | nil => exact Int.le_refl 0
  | cons number rest =>
    rw [largestSuffix_cons, List.sum_cons]
    exact Int.le_max_left _ _

namespace Move

/-- One level in or one level out, for the moves that change the level. -/
def turn? : Move → Option Int
  | .indent => some 1
  | .dedent => some (-1)
  | _ => none

/-- The turns in and out that moves make, in their order. -/
def turns (moves : List Move) : List Int :=
  moves.filterMap turn?

theorem sum_turns_cons (move : Move) (rest : List Move) :
    (turns (move :: rest)).sum = move.turn?.getD 0 + (turns rest).sum := by
  cases turn : move.turn? with
  | none => rw [turns, List.filterMap_cons_none turn, Option.getD_none, Int.zero_add, turns]
  | some number => rw [turns, List.filterMap_cons_some turn, List.sum_cons, Option.getD_some, turns]

theorem largestSuffix_turns_cons (move : Move) (rest : List Move) :
    largestSuffix (turns (move :: rest)) =
      max (move.turn?.getD 0 + (turns rest).sum) (largestSuffix (turns rest)) := by
  cases turn : move.turn? with
  | none =>
    rw [Option.getD_none, Int.zero_add, Int.max_eq_right (sum_le_largestSuffix _), turns,
      List.filterMap_cons_none turn, turns]
  | some number =>
    rw [turns, List.filterMap_cons_some turn, largestSuffix_cons, Option.getD_some, turns]

/-! ### The level behind a run -/

/-- A turn adds to the level, but leads no further out than to the outermost one. -/
theorem level_eq_max (before : Nat) (move : Move) :
    (move.level before : Int) = max (before + move.turn?.getD 0) 0 := by
  cases move <;> simp only [level, turn?, Option.getD_some, Option.getD_none] <;> omega

theorem level_eq_add_iff (before : Nat) (move : Move) :
    (move.level before : Int) = before + move.turn?.getD 0 ↔ (move = .dedent → before ≠ 0) := by
  cases move with
  | dedent =>
    simp only [level, turn?, Option.getD_some, forall_const]
    omega
  | indent | line | blank | raw | comment | snippet => simp [level, turn?]

theorem levelAfter_cons (before : Nat) (move : Move) (rest : List Move) :
    levelAfter before (move :: rest) = levelAfter (move.level before) rest := rfl

theorem levelAfter_eq_max (before : Nat) (moves : List Move) :
    (levelAfter before moves : Int) =
      max (before + (turns moves).sum) (largestSuffix (turns moves)) := by
  induction moves generalizing before with
  | nil =>
    have start : (0 : Int) ≤ before + 0 := by omega
    exact (Int.add_zero _).symm.trans (Int.max_eq_left start).symm
  | cons move rest inductionHypothesis =>
    -- where a turn is lost, the turns behind it are the suffix that counts
    have behind := sum_le_largestSuffix (turns rest)
    rw [levelAfter_cons, inductionHypothesis, level_eq_max, sum_turns_cons,
      largestSuffix_turns_cons]
    omega

/-- No turn is lost exactly if the moves never go out at the outermost level. -/
theorem levelAfter_eq_add_sum_iff (before : Nat) (moves : List Move) :
    (levelAfter before moves : Int) = before + (turns moves).sum ↔ Grounded before moves := by
  induction moves generalizing before with
  | nil => exact iff_of_true (Int.add_zero _).symm trivial
  | cons move rest inductionHypothesis =>
    -- a lost turn is never made up for, neither here nor behind
    have here := level_eq_max before move
    have behind : (move.level before : Int) + (turns rest).sum ≤
        levelAfter (move.level before) rest := by
      rw [levelAfter_eq_max]
      exact Int.le_max_left _ _
    rw [Grounded, ← inductionHypothesis, ← level_eq_add_iff, levelAfter_cons, sum_turns_cons]
    omega

end Move

/-! ### Blocks and what was written before -/

section Block

variable (buffer : Buffer) (header close : Text) (body : List Step)

/-- The buffer behind the body of a block. -/
theorem runAll_body :
    Step.runAll body (buffer.line header).deeper =
      { buffer with
        level := Move.levelAfter (buffer.level + 1) (Step.movesAll body)
        text := (buffer.line header).text ++
          Move.writtenAll buffer.indent (buffer.level + 1) (Step.movesAll body) } := by
  rw [Step.runAll_eq, Move.run_eq]
  rfl

/-- A block whose body goes in as often as out keeps its level exactly if the body never goes out at
the outermost level. -/
theorem level_block_eq_iff (balanced : (Move.turns (Step.movesAll body)).sum = 0) :
    ((Step.block header close body).run buffer).level = buffer.level ↔
      Move.Grounded (buffer.level + 1) (Step.movesAll body) := by
  have level : ((Step.block header close body).run buffer).level =
      Move.levelAfter (buffer.level + 1) (Step.movesAll body) - 1 := by
    rw [Step.run, runAll_body]
    rfl
  have behind := Move.levelAfter_eq_max (buffer.level + 1) (Step.movesAll body)
  rw [level, ← Move.levelAfter_eq_add_sum_iff]
  omega

/-- The close of such a block is indented like its header. -/
theorem text_block (balanced : (Move.turns (Step.movesAll body)).sum = 0)
    (grounded : Move.Grounded (buffer.level + 1) (Step.movesAll body)) :
    ((Step.block header close body).run buffer).text =
      (Step.runAll body (buffer.line header).deeper).text ++
        (buffer.margin ++ close ++ ['\n']) := by
  have level : (Step.runAll body (buffer.line header).deeper).shallower.level = buffer.level :=
    (level_block_eq_iff buffer header close body balanced).mpr grounded
  have indent : (Step.runAll body (buffer.line header).deeper).indent = buffer.indent := by
    rw [runAll_body]
  have margin : (Step.runAll body (buffer.line header).deeper).shallower.margin =
      buffer.margin := by
    rw [Buffer.margin, level, Buffer.margin, ← indent]
    rfl
  rw [← margin]
  rfl

end Block

/-- The level behind a run is the sum of its turns from the first level on, or the largest sum of
its last turns, whichever is larger. So a block whose body goes in as often as out comes back to its
own level, with its close indented like its header, as long as the body does not go out at the
outermost level; otherwise it does not come back. No step takes back what was written before it. -/
theorem level_closed_form :
    (∀ (steps : List Step) (buffer : Buffer),
      ((Step.runAll steps buffer).level : Int) =
        max (buffer.level + (Move.turns (Step.movesAll steps)).sum)
          (largestSuffix (Move.turns (Step.movesAll steps)))) ∧
    (∀ (buffer : Buffer) (header close : Text) (body : List Step),
      (Move.turns (Step.movesAll body)).sum = 0 →
        let inside := Step.runAll body (buffer.line header).deeper
        let behind := (Step.block header close body).run buffer
        (behind.level = buffer.level ↔
            Move.Grounded (buffer.level + 1) (Step.movesAll body)) ∧
          (Move.Grounded (buffer.level + 1) (Step.movesAll body) →
            buffer.text ++ (buffer.margin ++ header ++ ['\n']) <+: inside.text ∧
              behind.text = inside.text ++ (buffer.margin ++ close ++ ['\n']))) ∧
    ∀ (step : Step) (buffer : Buffer), buffer.text <+: (step.run buffer).text := by
  refine ⟨fun steps buffer => ?_, fun buffer header close body balanced => ⟨?_, ?_⟩,
    fun step buffer => ?_⟩
  · rw [Step.runAll_eq, Move.level_run, Move.levelAfter_eq_max]
  · exact level_block_eq_iff buffer header close body balanced
  · refine fun grounded => ⟨?_, text_block buffer header close body balanced grounded⟩
    rw [runAll_body]
    exact List.prefix_append _ _
  · rw [Step.run_eq, Move.text_run]
    exact List.prefix_append _ _

/-- A block at the first level whose body goes out for one line, and a run that loses a turn on its
way. -/
theorem level_closed_form_label :
    let body : List Step :=
      [.snippet "a\n  b".toList, .dedent, .line "l:".toList, .indent, .when true [.blank]]
    let buffer : Buffer := { indent := .tab, level := 1, text := "x ".toList }
    (Move.turns (Step.movesAll body)).sum = 0 ∧
      Move.Grounded (buffer.level + 1) (Step.movesAll body) ∧
      ((Step.block "do".toList "od".toList body).run buffer).text =
        (Step.runAll body (buffer.line "do".toList).deeper).text ++ "\tod\n".toList ∧
      (Step.runAll [.each [[.dedent], [.dedent]], .indent] buffer).level = 1 := by
  intro body buffer
  have balanced : (Move.turns (Step.movesAll body)).sum = 0 := by decide
  have grounded : Move.Grounded (buffer.level + 1) (Step.movesAll body) := by decide
  obtain ⟨closed, block, _⟩ := level_closed_form
  refine ⟨balanced, grounded,
    ((block buffer "do".toList "od".toList body balanced).2 grounded).2, ?_⟩
  exact Int.ofNat_inj.mp (closed [.each [[.dedent], [.dedent]], .indent] buffer)

end Scaffold.Code
