/-
This file describes generated code as a tree of steps, runs such a tree on a buffer, and
records a run step by step: after every step, nested ones included, the level of
indentation and the text that came in since the last record.
-/

import Scaffold.Code.Buffer

namespace Scaffold.Code

/-! ### Steps -/

/-- One step of generating code. -/
inductive Step where
  | line (content : Text)
  | blank
  | raw (content : Text)
  | indent
  | dedent
  | comment (marker content : Text)
  | snippet (content : Text)
  /-- A header line, a body one level further in, and a closing line. -/
  | block (header close : Text) (body : List Step)
  /-- Steps that run only if the condition holds. -/
  | when (condition : Bool) (body : List Step)
  /-- The steps of each item, one item after the other. -/
  | each (items : List (List Step))
  /-- Looks at what would be built now, and changes nothing. -/
  | build

mutual

/-- Runs one step. -/
def Step.run : Step → Buffer → Buffer
  | .line content, buffer => buffer.line content
  | .blank, buffer => buffer.blank
  | .raw content, buffer => buffer.raw content
  | .indent, buffer => buffer.deeper
  | .dedent, buffer => buffer.shallower
  | .comment marker content, buffer => buffer.comment marker content
  | .snippet content, buffer => buffer.snippet content
  | .block header close body, buffer =>
    (Step.runAll body (buffer.line header).deeper).shallower.line close
  | .when condition body, buffer => if condition then Step.runAll body buffer else buffer
  | .each items, buffer => Step.runEach items buffer
  | .build, buffer => buffer

/-- Runs steps in order. -/
def Step.runAll : List Step → Buffer → Buffer
  | [], buffer => buffer
  | step :: rest, buffer => Step.runAll rest (step.run buffer)

/-- Runs the steps of every item in order. -/
def Step.runEach : List (List Step) → Buffer → Buffer
  | [], buffer => buffer
  | item :: rest, buffer => Step.runEach rest (Step.runAll item buffer)

end

/-! ### Records -/

mutual

/-- The buffer at the end of every step within a step, its own end last. The flag tells the steps
that look at what would be built. -/
def Step.marks : Step → Buffer → List (Bool × Buffer)
  | .block header close body, buffer =>
    Step.marksAll body (buffer.line header).deeper ++
      [(false, (Step.block header close body).run buffer)]
  | .when condition body, buffer =>
    (if condition then Step.marksAll body buffer else []) ++
      [(false, (Step.when condition body).run buffer)]
  | .each items, buffer => Step.marksEach items buffer ++ [(false, (Step.each items).run buffer)]
  | .build, buffer => [(true, buffer)]
  | .line content, buffer => [(false, buffer.line content)]
  | .blank, buffer => [(false, buffer.blank)]
  | .raw content, buffer => [(false, buffer.raw content)]
  | .indent, buffer => [(false, buffer.deeper)]
  | .dedent, buffer => [(false, buffer.shallower)]
  | .comment marker content, buffer => [(false, buffer.comment marker content)]
  | .snippet content, buffer => [(false, buffer.snippet content)]

/-- The buffer at the end of every step of a list. -/
def Step.marksAll : List Step → Buffer → List (Bool × Buffer)
  | [], _ => []
  | step :: rest, buffer => step.marks buffer ++ Step.marksAll rest (step.run buffer)

/-- The buffer at the end of every step of every item. -/
def Step.marksEach : List (List Step) → Buffer → List (Bool × Buffer)
  | [], _ => []
  | item :: rest, buffer =>
    Step.marksAll item buffer ++ Step.marksEach rest (Step.runAll item buffer)

end

/-- What is recorded at the end of a step. -/
structure Record where
  level : Nat
  /-- The text that came in since the record before. -/
  added : Text
  /-- What would be built, where the step looks at it. -/
  built : Option Text

/-- The records of a run, given how much text was recorded before it. A buffer only grows, so what
came in is what stands behind that much text. -/
def records : Nat → List (Bool × Buffer) → List Record
  | _, [] => []
  | recorded, (looks, buffer) :: rest =>
    { level := buffer.level
      added := buffer.text.drop recorded
      built := if looks then some buffer.build else none } ::
      records buffer.text.length rest

/-- The records of running steps on an empty buffer. -/
def trace (indent : Indent) (steps : List Step) : List Record :=
  records 0 (Step.marksAll steps { indent })

end Scaffold.Code
