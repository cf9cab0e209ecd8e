/-
This file proves that it does not matter whether text is compacted before it goes
into a buffer: what is built at the end is the same. Two buffers agree when they
differ only in what compaction removes. Every step keeps that, and so does a raw
step whose text one of the two runs compacts first, at any depth of the tree.
-/

import Scaffold.Proofs.Moves

namespace Scaffold.Code

/-! ### Buffers that agree -/

/-- Two buffers at one level whose texts compact to the same text. -/
structure Buffer.Agree (first second : Buffer) : Prop where
  indent : first.indent = second.indent
  level : first.level = second.level
  built : first.build = second.build

theorem Buffer.Agree.refl (buffer : Buffer) : Buffer.Agree buffer buffer :=
  ⟨rfl, rfl, rfl⟩

/-- Moves write the same text on both sides, because they see only the style and the level. -/
theorem Buffer.Agree.run {first second : Buffer} (agree : Buffer.Agree first second)
    (moves : List Move) : Buffer.Agree (Move.run moves first) (Move.run moves second) := by
  rw [Move.run_eq, Move.run_eq, agree.indent, agree.level]
  exact ⟨rfl, rfl, Text.compact_append_congr agree.built rfl⟩

/-- Raw text that is compacted on the way in adds nothing else. -/
theorem Buffer.Agree.raw {first second : Buffer} (agree : Buffer.Agree first second)
    (content : Text) :
    Buffer.Agree (first.raw content) (second.raw (Text.compact content)) :=
  ⟨agree.indent, agree.level,
    Text.compact_append_congr agree.built (Text.compact_compact content).symm⟩

/-! ### Trees that differ in raw text -/

mutual

/-- The second step comes from the first by compacting the text of raw steps in it, any number of
them and at any depth. -/
inductive Step.Spliced : Step → Step → Prop
  | same (step : Step) : Step.Spliced step step
  | raw (content : Text) : Step.Spliced (.raw content) (.raw (Text.compact content))
  | block (header close : Text) {body body' : List Step} (spliced : Step.SplicedAll body body') :
    Step.Spliced (.block header close body) (.block header close body')
  | when (condition : Bool) {body body' : List Step} (spliced : Step.SplicedAll body body') :
    Step.Spliced (.when condition body) (.when condition body')
  | each {items items' : List (List Step)} (spliced : Step.SplicedEach items items') :
    Step.Spliced (.each items) (.each items')

/-- The same for lists of steps. -/
inductive Step.SplicedAll : List Step → List Step → Prop
  | nil : Step.SplicedAll [] []
  | cons {step step' : Step} {rest rest' : List Step} (head : Step.Spliced step step')
    (tail : Step.SplicedAll rest rest') : Step.SplicedAll (step :: rest) (step' :: rest')

/-- The same for the lists of steps of items. -/
inductive Step.SplicedEach : List (List Step) → List (List Step) → Prop
  | nil : Step.SplicedEach [] []
  | cons {item item' : List Step} {rest rest' : List (List Step)}
    (head : Step.SplicedAll item item') (tail : Step.SplicedEach rest rest') :
    Step.SplicedEach (item :: rest) (item' :: rest')

end

mutual

theorem Step.Spliced.run {step step' : Step} (spliced : Step.Spliced step step')
    {first second : Buffer} (agree : Buffer.Agree first second) :
    Buffer.Agree (step.run first) (step'.run second) := by
  cases spliced with
  | same =>
    rw [Step.run_eq, Step.run_eq]
    exact agree.run step.moves
  | raw content => exact agree.raw content
  | block header close inner =>
    have entered := agree.run [.line header, .indent]
    exact (Step.SplicedAll.run inner entered).run [.dedent, .line close]
  | when condition inner =>
    cases condition with
    | true => exact Step.SplicedAll.run inner agree
    | false => exact agree
  | each inner => exact Step.SplicedEach.run inner agree

theorem Step.SplicedAll.run {steps steps' : List Step} (spliced : Step.SplicedAll steps steps')
    {first second : Buffer} (agree : Buffer.Agree first second) :
    Buffer.Agree (Step.runAll steps first) (Step.runAll steps' second) := by
  cases spliced with
  | nil => exact agree
  | cons head tail => exact Step.SplicedAll.run tail (Step.Spliced.run head agree)

theorem Step.SplicedEach.run {items items' : List (List Step)}
    (spliced : Step.SplicedEach items items') {first second : Buffer}
    (agree : Buffer.Agree first second) :
    Buffer.Agree (Step.runEach items first) (Step.runEach items' second) := by
  cases spliced with
  | nil => exact agree
  | cons head tail => exact Step.SplicedEach.run tail (Step.SplicedAll.run head agree)

end

/-! ### Compaction may come early -/

/-- Compacting the two parts of a text first changes nothing about the compacted whole. So neither
does compacting the text of raw steps, wherever they stand in a run, nor adding what another buffer
builds in the place of its text. -/
theorem compact_congruence :
    (∀ front back : Text, Text.compact (front ++ back) =
      Text.compact (Text.compact front ++ Text.compact back)) ∧
    (∀ (steps steps' : List Step) (buffer : Buffer), Step.SplicedAll steps steps' →
      (Step.runAll steps' buffer).build = (Step.runAll steps buffer).build) ∧
    ∀ (history later : List Step) (other buffer : Buffer),
      (Step.runAll later ((Step.runAll history buffer).raw other.build)).build =
        (Step.runAll later ((Step.runAll history buffer).raw other.text)).build := by
  refine ⟨fun front back => ?_, fun steps steps' buffer spliced => ?_,
    fun history later other buffer => ?_⟩
  · rw [Text.compact_append_compact, Text.compact_compact_append]
  · exact (spliced.run (Buffer.Agree.refl buffer)).built.symm
  · have agree := (Buffer.Agree.refl (Step.runAll history buffer)).raw other.text
    rw [Step.runAll_eq later, Step.runAll_eq later]
    exact (agree.run (Step.movesAll later)).built.symm

/-- A raw text in a block whose last newlines go in without the one that would be cut. -/
theorem compact_congruence_block :
    Step.SplicedAll [.block ['d', 'o'] ['o', 'd'] [.raw ['a', ' ', '\n', '\n', '\n']], .blank]
        [.block ['d', 'o'] ['o', 'd'] [.raw ['a', '\n', '\n']], .blank] ∧
      (Step.runAll [.block ['d', 'o'] ['o', 'd'] [.raw ['a', '\n', '\n']], .blank] {}).build =
        (Step.runAll [.block ['d', 'o'] ['o', 'd'] [.raw ['a', ' ', '\n', '\n', '\n']], .blank]
          {}).build := by
  have spliced : Step.SplicedAll
      [.block ['d', 'o'] ['o', 'd'] [.raw ['a', ' ', '\n', '\n', '\n']], .blank]
      [.block ['d', 'o'] ['o', 'd'] [.raw ['a', '\n', '\n']], .blank] :=
    .cons (.block _ _ (.cons (.raw ['a', ' ', '\n', '\n', '\n']) .nil)) (.cons (.same .blank) .nil)
  exact ⟨spliced, compact_congruence.2.1 _ _ {} spliced⟩

end Scaffold.Code
