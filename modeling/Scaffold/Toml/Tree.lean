/-
This file holds the tree that a TOML document stands for, with the place of every
key and every value, and tells the documents in which every part has a value from
those in which some number has none.

A table whose first key is the one under which moments are taken for tables is
taken for a moment in turn. It has a value if that key holds the text of a moment,
and then nothing behind the key counts.
-/

import Scaffold.Schema.Fault
import Scaffold.Toml.Plain
import Scaffold.Toml.Token

namespace Scaffold.Toml

/-- A key and where it is written. -/
structure Key where
  text : Text
  span : Span
deriving DecidableEq

/-- How a table came into the document. It decides what may still be added to it. -/
inductive Origin where
  /-- By a header of its own. -/
  | header
  /-- By standing on the way to a table that has a header. -/
  | path
  /-- By standing on the way to a dotted key. -/
  | dotted
  /-- In braces. -/
  | inline
deriving DecidableEq

/-- A value of a document. The entries of a table keep the order of the document. -/
inductive Tree where
  | text (span : Span) (value : Text)
  | plain (span : Span) (value : Plain)
  /-- An array. The flag tells the arrays to which headers add tables. -/
  | array (span : Span) (ofTables : Bool) (elements : List Tree)
  | table (span : Span) (origin : Origin) (entries : List (Key × Tree))

/-- The entries of a table. -/
abbrev Entries := List (Key × Tree)

namespace Tree

/-- Where a value is written. A table with a header is written where its header is, a table on the
way to another one where the first key is that names it. -/
def span : Tree → Span
  | .text span _ => span
  | .plain span _ => span
  | .array span _ _ => span
  | .table span _ _ => span

/-- The key under which a moment that is taken for a table holds its text. -/
def momentKey : Text :=
  "$__toml_private_datetime".toList

/-- The entries of a value that is a table or is taken for one. A moment is taken for a table with one
entry, which stands where the moment does. -/
def entries? : Tree → Option Entries
  | .table _ _ entries => some entries
  | .plain span (.moment written) => some [(⟨momentKey, span⟩, .text span written)]
  | _ => none

/-- What a value shows in its place. -/
def found : Tree → Schema.Found
  | .text _ value => .text value
  | .plain _ (.boolean value) => .boolean value
  | .plain _ (.integer value) => .integer value
  | .plain _ (.real value) => .floating value.text
  | .plain _ (.moment _) => .map
  | .plain _ .valueless => .valueless
  | .array _ _ _ => .sequence
  | .table _ _ _ => .map

end Tree

/-! ### Parts with a value -/

/-- Whether a value is the text of a moment. -/
def Tree.namesMoment : Tree → Bool
  | .text _ written => (moment? written).isSome
  | _ => false

mutual

/-- Whether a part of a document has a value, with all that it is made of. -/
def Tree.isValued : Tree → Bool
  | .text _ _ => true
  | .plain _ value => value ≠ .valueless
  | .array _ _ elements => elementsValued elements
  | .table _ _ [] => true
  | .table _ _ ((key, tree) :: rest) =>
    if key.text = Tree.momentKey then tree.namesMoment
    else tree.isValued ∧ entriesValued rest

/-- Whether all elements of an array have values. -/
def elementsValued : List Tree → Bool
  | [] => true
  | tree :: rest => tree.isValued ∧ elementsValued rest

/-- Whether all entries of a table have values. -/
def entriesValued : List (Key × Tree) → Bool
  | [] => true
  | (_, tree) :: rest => tree.isValued ∧ entriesValued rest

end

end Scaffold.Toml
