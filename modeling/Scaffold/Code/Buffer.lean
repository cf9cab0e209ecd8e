/-
This file holds the buffer in which generated code is assembled, with the style of its
indentation, and the basic ways to add to it. Nothing is ever taken out of a buffer;
what is built from it is its text after compaction.
-/

import Scaffold.Text.Reindent

namespace Scaffold.Code

/-! ### Indentation -/

/-- How one level of indentation is written. -/
inductive Indent where
  /-- So many spaces, of which at most eight are written. -/
  | spaces (width : Nat)
  | tab
deriving DecidableEq

namespace Indent

/-- Two spaces, the layout of declarations and schemas. -/
def two : Indent := .spaces 2

/-- Four spaces. -/
def four : Indent := .spaces 4

/-- The text of one level of indentation. Styles that write the same text may still differ. -/
def unit : Indent → Text
  | .spaces width => List.replicate (min width 8) ' '
  | .tab => ['\t']

/-- The text of `level` levels of indentation. -/
def repeated (indent : Indent) (level : Nat) : Text :=
  (List.replicate level indent.unit).flatten

end Indent

/-! ### The buffer -/

/-- Generated code in the making: the style and level of indentation, and the text so far. -/
structure Buffer where
  indent : Indent := .two
  level : Nat := 0
  text : Text := []
deriving DecidableEq

namespace Buffer

/-- The indentation in front of a line at the current level. -/
def margin (buffer : Buffer) : Text :=
  buffer.indent.repeated buffer.level

/-- Adds text as it is. -/
def raw (buffer : Buffer) (content : Text) : Buffer :=
  { buffer with text := buffer.text ++ content }

/-- Adds one indented line. -/
def line (buffer : Buffer) (content : Text) : Buffer :=
  buffer.raw (buffer.margin ++ content ++ ['\n'])

/-- Adds an empty line, without indentation. -/
def blank (buffer : Buffer) : Buffer :=
  buffer.raw ['\n']

/-- Goes one level in. -/
def deeper (buffer : Buffer) : Buffer :=
  { buffer with level := buffer.level + 1 }

/-- Goes one level out. The outermost level stays where it is. -/
def shallower (buffer : Buffer) : Buffer :=
  { buffer with level := buffer.level - 1 }

/-- Adds a hand-indented block of text with `lead` in front of every line. A blank block adds
nothing, not even an empty line. -/
def reindented (buffer : Buffer) (content lead : Text) : Buffer :=
  if Text.allBlank content then buffer
  else buffer.raw (Text.reindent content lead ++ ['\n'])

/-- Adds a comment: every line of it starts with the indentation and the marker. -/
def comment (buffer : Buffer) (marker content : Text) : Buffer :=
  buffer.reindented content (buffer.margin ++ marker)

/-- Adds a snippet of code at the current indentation. -/
def snippet (buffer : Buffer) (content : Text) : Buffer :=
  buffer.reindented content buffer.margin

/-- The finished code: no line ends in white space and blank lines stand alone. -/
def build (buffer : Buffer) : Text :=
  Text.compact buffer.text

end Buffer

end Scaffold.Code
