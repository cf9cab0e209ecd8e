/-
This file reads the declarations of a catalog off a document.

Every record may come as a table, whose keys must be fields of the record, or as
an array of all its fields in the order of their declaration. The first thing in
the document that does not fit is reported with its place.
-/

import Scaffold.Catalog.Declarations
import Scaffold.Scalar.Json
import Scaffold.Toml.Tree

namespace Scaffold.Catalog

open Scalar (Options)
open Schema (Fault Wanted)
open Toml (Entries Span Tree)

/-- A fault and where it is. -/
structure Misfit where
  fault : Fault
  span : Span
deriving DecidableEq

/-! ### Readers -/

/-- Reads a text. -/
def readText (tree : Tree) : Except Misfit Text :=
  match tree.found with
  | .text value => .ok value
  | found => .error ⟨.wrongKind found .text, tree.span⟩

/-- Reads a table under whose keys all values are of one kind. -/
def readRegister {Value : Type} (read : Tree → Except Misfit Value) (tree : Tree) :
    Except Misfit (Register Value) :=
  match tree.entries? with
  | some entries =>
    entries.foldlM (fun register (key, tree) => do
      let value ← read tree
      return register.insert key.text value) .empty
  | none => .error ⟨.wrongKind tree.found .map, tree.span⟩

/-- What a record is called and what its fields are. A field assigns the value in its place to the
record that has been read so far. -/
structure Shape (Record : Type) where
  name : Text
  fields : List (Text × (Record → Tree → Except Misfit Record))

namespace Shape

variable {Record : Type}

/-- The record, as a message names it. -/
def wanted (shape : Shape Record) : Wanted :=
  .record shape.name (shape.fields.map Prod.fst)

/-- Assigns the entries of a table to the fields of their names. -/
def assignEntries (shape : Shape Record) (record : Record) : Entries → Except Misfit Record
  | [] => .ok record
  | (key, tree) :: rest =>
    match shape.fields.lookup key.text with
    | none => .error ⟨.unknownField key.text (shape.fields.map Prod.fst), key.span⟩
    | some assign => do
      let record ← assign record tree
      assignEntries shape record rest

/-- Assigns elements to fields in order. Elements behind the last field are left alone. -/
def assignElements (tooShort : Misfit) (record : Record) :
    List (Text × (Record → Tree → Except Misfit Record)) → List Tree → Except Misfit Record
  | [], _ => .ok record
  | _ :: _, [] => .error tooShort
  | (_, assign) :: fields, tree :: rest => do
    let record ← assign record tree
    assignElements tooShort record fields rest

/-- Reads a record, starting from a record of nothing. -/
def read (shape : Shape Record) (nothing : Record) (tree : Tree) : Except Misfit Record :=
  match tree with
  | .array span _ elements =>
    assignElements ⟨.tooShort elements.length shape.wanted, span⟩ nothing shape.fields elements
  | _ =>
    match tree.entries? with
    | some entries => shape.assignEntries nothing entries
    | none => .error ⟨.wrongKind tree.found shape.wanted, tree.span⟩

end Shape

/-! ### The records of a catalog -/

/-- The settings of a catalog: the separator alone. -/
def settingsShape : Shape (Option Text) where
  name := "Settings".toList
  fields := [("scope_separator".toList, fun _ tree => do return some (← readText tree))]

/-- The options of a scalar type. -/
def optionsShape : Shape Options where
  name := "ScalarTypeOptions".toList
  fields := Scalar.Field.all.map fun field =>
    (field.name, fun options tree =>
      (options.assign field tree.found).mapError fun fault => ⟨fault, tree.span⟩)

/-- What has been read of an enumeration. -/
structure EnumerationFields where
  name : Option Text := none
  scope : Option Text := none
  default : Option Text := none
deriving DecidableEq

/-- The fields of an enumeration. -/
def enumerationShape : Shape EnumerationFields where
  name := "EnumEntry".toList
  fields :=
    [("name".toList, fun fields tree => do return { fields with name := some (← readText tree) }),
     ("scope".toList, fun fields tree => do return { fields with scope := some (← readText tree) }),
     ("default".toList, fun fields tree => do
        return { fields with default := some (← readText tree) })]

/-- Reads an enumeration. It must have a default. -/
def readEnumeration (tree : Tree) : Except Misfit Enumeration := do
  let fields ← enumerationShape.read {} tree
  match fields.default with
  | some default => return { name := fields.name, scope := fields.scope, default }
  | none => .error ⟨.missingField "default".toList, tree.span⟩

/-- The tables of a catalog. -/
def catalogShape : Shape Declarations where
  name := "Catalog".toList
  fields :=
    [("settings".toList, fun declarations tree => do
        return { declarations with separator := ← settingsShape.read none tree }),
     ("scalars".toList, fun declarations tree => do
        return { declarations with scalars := ← readRegister (optionsShape.read {}) tree }),
     ("enums".toList, fun declarations tree => do
        return { declarations with enums := ← readRegister readEnumeration tree })]

/-- The declarations of a document. -/
def Declarations.ofEntries (entries : Entries) : Except Misfit Declarations :=
  catalogShape.assignEntries ⟨none, .empty, .empty⟩ entries

end Scaffold.Catalog
