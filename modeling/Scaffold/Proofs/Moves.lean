/-
This file flattens a tree of steps into the moves that it makes on a buffer, in the
order in which it makes them. What one move can do is said once: it changes the
level, and it adds a text that depends on the style and the level alone. What holds
of a run then follows by induction on a list, however deep the tree was. What holds
at the end of every step of a run follows as well, since each of these ends comes
behind some of the moves, and which ones they are does not depend on the buffer.
-/

import Scaffold.Code.Trace

namespace Scaffold.Code

/-! ### Moves -/

/-- What a step does to a buffer without the help of other steps. -/
inductive Move where
  | line (content : Text)
  | blank
  | raw (content : Text)
  | indent
  | dedent
  | comment (marker content : Text)
  | snippet (content : Text)
deriving DecidableEq

namespace Move

/-- Makes one move. -/
def act : Move → Buffer → Buffer
  | .line content, buffer => buffer.line content
  | .blank, buffer => buffer.blank
  | .raw content, buffer => buffer.raw content
  | .indent, buffer => buffer.deeper
  | .dedent, buffer => buffer.shallower
  | .comment marker content, buffer => buffer.comment marker content
  | .snippet content, buffer => buffer.snippet content

/-- Makes moves in order. -/
def run (moves : List Move) (buffer : Buffer) : Buffer :=
  moves.foldl (fun current move => move.act current) buffer

/-- The level behind a move. -/
def level (before : Nat) : Move → Nat
  | .indent => before + 1
  | .dedent => before - 1
  | _ => before

/-- The level behind moves made in order. -/
def levelAfter (before : Nat) (moves : List Move) : Nat :=
  moves.foldl level before

/-- The text that a move adds at a level. -/
def written (indent : Indent) (level : Nat) : Move → Text
  | .line content => indent.repeated level ++ content ++ ['\n']
  | .blank => ['\n']
  | .raw content => content
  | .indent => []
  | .dedent => []
  | .comment marker content => Text.block content (indent.repeated level ++ marker)
  | .snippet content => Text.block content (indent.repeated level)

/-- The text that moves add when made in order. -/
def writtenAll (indent : Indent) : Nat → List Move → Text
  | _, [] => []
  | before, move :: rest => move.written indent before ++ writtenAll indent (move.level before) rest

theorem reindented_eq_raw (buffer : Buffer) (content lead : Text) :
    buffer.reindented content lead = buffer.raw (Text.block content lead) := by
  rw [Buffer.reindented, Text.block]
  split
  · rw [Buffer.raw, List.append_nil]
  · rfl

/-- All that a move does. -/
theorem act_eq (move : Move) (buffer : Buffer) :
    move.act buffer =
      { buffer with
        level := move.level buffer.level
        text := buffer.text ++ move.written buffer.indent buffer.level } := by
  cases move with
  | indent => rw [written, List.append_nil]; rfl
  | dedent => rw [written, List.append_nil]; rfl
  | comment marker content => exact reindented_eq_raw buffer content _
  | snippet content => exact reindented_eq_raw buffer content _
  | line content => rfl
  | blank => rfl
  | raw content => rfl

theorem run_cons (move : Move) (rest : List Move) (buffer : Buffer) :
    run (move :: rest) buffer = run rest (move.act buffer) := rfl

theorem run_append (first second : List Move) (buffer : Buffer) :
    run (first ++ second) buffer = run second (run first buffer) :=
  List.foldl_append

theorem writtenAll_append (indent : Indent) (before : Nat) (first second : List Move) :
    writtenAll indent before (first ++ second) =
      writtenAll indent before first ++ writtenAll indent (levelAfter before first) second := by
  induction first generalizing before with
  | nil => rfl
  | cons move rest inductionHypothesis =>
    rw [List.cons_append, writtenAll, writtenAll, inductionHypothesis, List.append_assoc]
    rfl

/-- All that moves do. -/
theorem run_eq (moves : List Move) (buffer : Buffer) :
    run moves buffer =
      { buffer with
        level := levelAfter buffer.level moves
        text := buffer.text ++ writtenAll buffer.indent buffer.level moves } := by
  induction moves generalizing buffer with
  | nil => rw [writtenAll, List.append_nil]; rfl
  | cons move rest inductionHypothesis =>
    rw [run_cons, inductionHypothesis, act_eq, writtenAll, List.append_assoc]
    rfl

theorem level_run (moves : List Move) (buffer : Buffer) :
    (run moves buffer).level = levelAfter buffer.level moves := by
  rw [run_eq]

theorem text_run (moves : List Move) (buffer : Buffer) :
    (run moves buffer).text = buffer.text ++ writtenAll buffer.indent buffer.level moves := by
  rw [run_eq]

end Move

/-! ### The moves of a tree -/

mutual

/-- The moves of one step. A block makes those of its header, of its body and of its close. -/
def Step.moves : Step → List Move
  | .line content => [.line content]
  | .blank => [.blank]
  | .raw content => [.raw content]
  | .indent => [.indent]
  | .dedent => [.dedent]
  | .comment marker content => [.comment marker content]
  | .snippet content => [.snippet content]
  | .block header close body =>
    .line header :: .indent :: (Step.movesAll body ++ [.dedent, .line close])
  | .when condition body => if condition then Step.movesAll body else []
  | .each items => Step.movesEach items
  | .build => []

/-- The moves of steps, one step after the other. -/
def Step.movesAll : List Step → List Move
  | [] => []
  | step :: rest => step.moves ++ Step.movesAll rest

/-- The moves of the steps of every item. -/
def Step.movesEach : List (List Step) → List Move
  | [] => []
  | item :: rest => Step.movesAll item ++ Step.movesEach rest

end

mutual

/-- A step does to a buffer what its moves do. -/
theorem Step.run_eq (step : Step) (buffer : Buffer) :
    step.run buffer = Move.run step.moves buffer := by
  cases step with
  | block header close body =>
    rw [Step.run, Step.runAll_eq body, Step.moves, Move.run_cons, Move.run_cons, Move.run_append]
    rfl
  | when condition body =>
    rw [Step.run, Step.moves]
    split
    · exact Step.runAll_eq body buffer
    · rfl
  | each items => rw [Step.run, Step.moves, Step.runEach_eq items]
  | line content => rfl
  | blank => rfl
  | raw content => rfl
  | indent => rfl
  | dedent => rfl
  | comment marker content => rfl
  | snippet content => rfl
  | build => rfl

theorem Step.runAll_eq (steps : List Step) (buffer : Buffer) :
    Step.runAll steps buffer = Move.run (Step.movesAll steps) buffer := by
  cases steps with
  | nil => rfl
  | cons step rest =>
    rw [Step.runAll, Step.movesAll, Move.run_append, Step.run_eq step, Step.runAll_eq rest]

theorem Step.runEach_eq (items : List (List Step)) (buffer : Buffer) :
    Step.runEach items buffer = Move.run (Step.movesEach items) buffer := by
  cases items with
  | nil => rfl
  | cons item rest =>
    rw [Step.runEach, Step.movesEach, Move.run_append, Step.runAll_eq item, Step.runEach_eq rest]

end

/-! ### The ends of steps -/

/-- The moves up to the end of a step, with those in front of the step before them. -/
def Step.behind (front : List Move) (stop : Bool × List Move) : Bool × List Move :=
  (stop.1, front ++ stop.2)

mutual

/-- The moves up to the end of every step within a step, its own end last. The flag tells the steps
that look at what would be built. -/
def Step.stops : Step → List (Bool × List Move)
  | .block header close body =>
    (Step.stopsAll body).map (Step.behind [.line header, .indent]) ++
      [(false, (Step.block header close body).moves)]
  | .when condition body =>
    (if condition then Step.stopsAll body else []) ++ [(false, (Step.when condition body).moves)]
  | .each items => Step.stopsEach items ++ [(false, (Step.each items).moves)]
  | .build => [(true, [])]
  | .line content => [(false, [.line content])]
  | .blank => [(false, [.blank])]
  | .raw content => [(false, [.raw content])]
  | .indent => [(false, [.indent])]
  | .dedent => [(false, [.dedent])]
  | .comment marker content => [(false, [.comment marker content])]
  | .snippet content => [(false, [.snippet content])]

/-- The moves up to the end of every step of a list. -/
def Step.stopsAll : List Step → List (Bool × List Move)
  | [] => []
  | step :: rest => step.stops ++ (Step.stopsAll rest).map (Step.behind step.moves)

/-- The moves up to the end of every step of every item. -/
def Step.stopsEach : List (List Step) → List (Bool × List Move)
  | [] => []
  | item :: rest =>
    Step.stopsAll item ++ (Step.stopsEach rest).map (Step.behind (Step.movesAll item))

end

/-- The mark of a run at the end of a step. -/
def Step.mark (buffer : Buffer) (stop : Bool × List Move) : Bool × Buffer :=
  (stop.1, Move.run stop.2 buffer)

theorem Step.map_mark_behind (front : List Move) (buffer : Buffer)
    (stops : List (Bool × List Move)) :
    (stops.map (Step.behind front)).map (Step.mark buffer) =
      stops.map (Step.mark (Move.run front buffer)) := by
  rw [List.map_map]
  refine List.map_congr_left fun stop _ => ?_
  exact congrArg (Prod.mk stop.1) (Move.run_append front stop.2 buffer)

theorem Step.mark_moves (step : Step) (buffer : Buffer) :
    Step.mark buffer (false, step.moves) = (false, step.run buffer) :=
  congrArg (Prod.mk false) (step.run_eq buffer).symm

mutual

/-- The marks of a step are those of its moves up to the ends of steps. -/
theorem Step.marks_eq (step : Step) (buffer : Buffer) :
    step.marks buffer = step.stops.map (Step.mark buffer) := by
  cases step with
  | block header close body =>
    rw [Step.marks, Step.stops, List.map_append, Step.map_mark_behind, List.map_singleton,
      Step.mark_moves, Step.marksAll_eq body]
    rfl
  | when condition body =>
    rw [Step.marks, Step.stops, List.map_append, List.map_singleton, Step.mark_moves]
    split
    · rw [Step.marksAll_eq body]
    · rfl
  | each items =>
    rw [Step.marks, Step.stops, List.map_append, List.map_singleton, Step.mark_moves,
      Step.marksEach_eq items]
  | build => rfl
  | line content => rfl
  | blank => rfl
  | raw content => rfl
  | indent => rfl
  | dedent => rfl
  | comment marker content => rfl
  | snippet content => rfl

theorem Step.marksAll_eq (steps : List Step) (buffer : Buffer) :
    Step.marksAll steps buffer = (Step.stopsAll steps).map (Step.mark buffer) := by
  cases steps with
  | nil => rfl
  | cons step rest =>
    rw [Step.marksAll, Step.stopsAll, List.map_append, Step.map_mark_behind, Step.marks_eq step,
      Step.marksAll_eq rest, Step.run_eq]

theorem Step.marksEach_eq (items : List (List Step)) (buffer : Buffer) :
    Step.marksEach items buffer = (Step.stopsEach items).map (Step.mark buffer) := by
  cases items with
  | nil => rfl
  | cons item rest =>
    rw [Step.marksEach, Step.stopsEach, List.map_append, Step.map_mark_behind,
      Step.marksAll_eq item, Step.marksEach_eq rest, Step.runAll_eq]

end

theorem Step.prefix_of_mem_map_behind {front moves : List Move} {stops : List (Bool × List Move)}
    (prefixes : ∀ stop ∈ stops, stop.2 <+: moves) {stop : Bool × List Move}
    (member : stop ∈ stops.map (Step.behind front)) : stop.2 <+: front ++ moves := by
  obtain ⟨inner, inStops, rfl⟩ := List.mem_map.mp member
  exact (List.prefix_append_right_inj front).mpr (prefixes inner inStops)

theorem Step.prefix_of_mem_append_own {inner : List (Bool × List Move)} {moves : List Move}
    (prefixes : ∀ stop ∈ inner, stop.2 <+: moves) :
    ∀ stop ∈ inner ++ [(false, moves)], stop.2 <+: moves := by
  intro stop member
  rcases List.mem_append.mp member with earlier | own
  · exact prefixes stop earlier
  · obtain rfl := List.mem_singleton.mp own
    exact List.prefix_rfl

mutual

/-- What is done at the end of a step within a step is a front part of what the whole step does. -/
theorem Step.prefix_of_mem_stops (step : Step) :
    ∀ stop ∈ step.stops, stop.2 <+: step.moves := by
  cases step with
  | block header close body =>
    refine Step.prefix_of_mem_append_own fun stop member => ?_
    have within := Step.prefix_of_mem_map_behind (Step.prefix_of_mem_stopsAll body) member
    refine within.trans ?_
    rw [Step.moves, List.cons_append, List.cons_append, List.nil_append]
    exact ⟨[.dedent, .line close], by simp⟩
  | when condition body =>
    refine Step.prefix_of_mem_append_own fun stop member => ?_
    cases condition with
    | true => exact Step.prefix_of_mem_stopsAll body stop member
    | false => exact absurd member List.not_mem_nil
  | each items => exact Step.prefix_of_mem_append_own (Step.prefix_of_mem_stopsEach items)
  | _ =>
    intro stop member
    obtain rfl := List.mem_singleton.mp member
    exact List.prefix_rfl

theorem Step.prefix_of_mem_stopsAll (steps : List Step) :
    ∀ stop ∈ Step.stopsAll steps, stop.2 <+: Step.movesAll steps := by
  intro stop member
  cases steps with
  | nil => exact absurd member List.not_mem_nil
  | cons step rest =>
    rcases List.mem_append.mp member with here | later
    · exact (Step.prefix_of_mem_stops step stop here).trans (List.prefix_append _ _)
    · exact Step.prefix_of_mem_map_behind (Step.prefix_of_mem_stopsAll rest) later

theorem Step.prefix_of_mem_stopsEach (items : List (List Step)) :
    ∀ stop ∈ Step.stopsEach items, stop.2 <+: Step.movesEach items := by
  intro stop member
  cases items with
  | nil => exact absurd member List.not_mem_nil
  | cons item rest =>
    rcases List.mem_append.mp member with here | later
    · exact (Step.prefix_of_mem_stopsAll item stop here).trans (List.prefix_append _ _)
    · exact Step.prefix_of_mem_map_behind (Step.prefix_of_mem_stopsEach rest) later

end

/-- Every mark of a run shows what some of its first moves lead to. -/
theorem Step.exists_prefix_of_mem_marksAll {steps : List Step} {buffer : Buffer}
    {mark : Bool × Buffer} (member : mark ∈ Step.marksAll steps buffer) :
    ∃ done, done <+: Step.movesAll steps ∧ mark.2 = Move.run done buffer := by
  rw [Step.marksAll_eq] at member
  obtain ⟨stop, inStops, rfl⟩ := List.mem_map.mp member
  exact ⟨stop.2, Step.prefix_of_mem_stopsAll steps stop inStops, rfl⟩

/-- The last mark of a step shows what the step leads to. -/
theorem Step.getLast?_marks (step : Step) (buffer : Buffer) :
    (step.marks buffer).getLast?.map Prod.snd = some (step.run buffer) := by
  cases step <;> simp [Step.marks, Step.run]

/-- A run that was started ends at its last mark. -/
theorem Step.getLast?_marksAll (steps : List Step) (buffer : Buffer) :
    ((Step.marksAll steps buffer).getLast?.map Prod.snd).getD buffer =
      Step.runAll steps buffer := by
  induction steps generalizing buffer with
  | nil => rfl
  | cons step rest inductionHypothesis =>
    rw [Step.marksAll, Step.runAll, ← inductionHypothesis, List.getLast?_append]
    have ends := Step.getLast?_marks step buffer
    cases (Step.marksAll rest (step.run buffer)).getLast? with
    | none => rw [Option.none_or, ends]; rfl
    | some mark => rfl

end Scaffold.Code
