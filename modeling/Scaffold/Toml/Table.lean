/-
This file adds entries to tables, by the rules on which parts of a document may
define a table together.

A table in braces is complete. A table with a header takes entries under that
header only. A table that exists because a header or a dotted key leads through it
can be led through again, but a dotted key only ends in a table that dotted keys
made.
-/

import Scaffold.Toml.Tree

namespace Scaffold.Toml

/-- A value and the key that it is assigned to: the last part of a dotted key, behind the parts that
lead to it. -/
structure Assignment where
  path : List Key
  key : Key
  value : Tree

/-- A header: the parts that lead to the table, the key of the table, and whether it adds a table to
an array. -/
structure Header where
  toArray : Bool
  path : List Key
  key : Key
  span : Span

/-- Changes the entry of a key, or makes one at the end of the entries if there is none. -/
def changeAt? (key : Key) (fresh : Option Tree) (change : Tree → Option Tree) :
    Entries → Option Entries
  | [] => fresh.map fun tree => [(key, tree)]
  | (other, tree) :: more =>
    if other.text = key.text then (change tree).map fun tree => (other, tree) :: more
    else (changeAt? key fresh change more).map ((other, tree) :: ·)

/-- Changes the last element of a list. -/
def changeLast? (change : Tree → Option Tree) : List Tree → Option (List Tree)
  | [] => none
  | [tree] => (change tree).map ([·])
  | tree :: more => (changeLast? change more).map (tree :: ·)

/-- Changes the entries of a table whose origin allows it. -/
def changeTable? (allowed : Origin → Bool) (change : Entries → Option Entries) :
    Tree → Option Tree
  | .table span origin entries =>
    if allowed origin then (change entries).map (.table span origin) else none
  | _ => none

/-- Assigns a value to a key that is not there yet, in the table to which a path leads. Tables that are
missing on the way are made. -/
def assign? (key : Key) (value : Tree) : List Key → Entries → Option Entries
  | [], entries => changeAt? key (some value) (fun _ => none) entries
  | part :: path, entries =>
    let inner := assign? key value path
    changeAt? part ((inner []).map (.table part.span .dotted))
      (fun
        | .array span true elements =>
          if path = [] then none
          else (changeLast? (changeTable? (fun _ => true) inner) elements).map (.array span true)
        | tree =>
          changeTable? (fun origin => origin = .dotted ∨ (origin = .path ∧ path ≠ [])) inner tree)
      entries

/-- Carries out assignments one after the other. -/
def assignAll? (entries : Entries) (assignments : List Assignment) : Option Entries :=
  assignments.foldlM (fun entries assignment =>
    assign? assignment.key assignment.value assignment.path entries) entries

/-- Changes the entries of the table to which the path of a header leads. A path goes through the last
table of an array; tables that are missing on the way are made. -/
def reach? (change : Entries → Option Entries) : List Key → Entries → Option Entries
  | [], entries => change entries
  | part :: path, entries =>
    let inner := reach? change path
    changeAt? part ((inner []).map (.table part.span .path))
      (fun
        | .array span true elements =>
          (changeLast? (changeTable? (fun _ => true) inner) elements).map (.array span true)
        | tree => changeTable? (· ≠ .inline) inner tree)
      entries

/-- Adds a table to the array of a key. -/
def pushTable? (header : Header) (table : Entries) : Entries → Option Entries :=
  let element : Tree := .table header.span .header table
  changeAt? header.key (some (.array header.span true [element])) fun
    | .array span true elements => some (.array span true (elements ++ [element]))
    | _ => none

/-- Defines the table of a key. Only a table that headers led through may be there already; it moves
to the end of the entries. -/
def defineTable? (header : Header) (assignments : List Assignment) (entries : Entries) :
    Option Entries := do
  let others := entries.filter fun entry => entry.1.text ≠ header.key.text
  let before ←
    match entries.find? fun entry => entry.1.text = header.key.text with
    | none => some []
    | some (_, .table _ .path before) => some before
    | some _ => none
  let table ← assignAll? before assignments
  some (others ++ [(header.key, .table header.span .header table)])

/-- Adds what stands under a header to the entries of a document. -/
def addSection? (entries : Entries) (part : Header × List Assignment) : Option Entries :=
  let (header, assignments) := part
  if header.toArray then
    (assignAll? [] assignments).bind fun table => reach? (pushTable? header table) header.path entries
  else reach? (defineTable? header assignments) header.path entries

end Scaffold.Toml
