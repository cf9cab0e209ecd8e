/-
This file reads catalogs from their texts.

A text is first read as a document, then the document is held against the schema
of a catalog, and then the entries are assembled. Each stage only begins when the
one before it has found no fault anywhere. A document that does not fit the schema
is looked at once more: if some part of it has no value, it is no document at all.
-/

import Scaffold.Catalog.Assembly
import Scaffold.Catalog.Error
import Scaffold.Catalog.Schema
import Scaffold.Toml.Document

namespace Scaffold.Catalog

/-- The file name of catalogs that come without one. -/
def defaultFilename : Text :=
  "scalars.toml".toList

/-- Where a name of a table is declared in a source. -/
def Source.locate? (source : Source) (table : Table) (name : Text) : Option Region :=
  Catalog.locate? source.text table.name name

/-- The stretch of a source that a span tells by the bytes that are unread at its ends. -/
def Source.region (source : Source) (span : Toml.Span) : Region :=
  ⟨Text.byteLength source.text - span.start, span.start - span.stop⟩

/-- The error that the fault of an entry is. -/
def Source.entryError (source : Source) (entry : Entry) : EntryFault → Error
  | .invalidName fault =>
    .invalidName entry.name fault.message (source.locate? entry.table entry.name)
  | .duplicate =>
    .duplicateScalar entry.name (source.locate? .scalars entry.name)
      (source.locate? .enums entry.name)
  | .unbuildable cause =>
    .missingPrimaryType entry.name (source.locate? entry.table entry.name) cause

/-- The declarations of a source. -/
def Source.declarations (source : Source) : Except Error Declarations :=
  match Toml.read? source.text with
  | none => .error .malformed
  | some entries =>
    (Declarations.ofEntries entries).mapError fun misfit =>
      if Toml.entriesValued entries then .unfit misfit.fault (source.region misfit.span)
      else .malformed

/-- A source has declarations if it is a document that fits the schema. -/
theorem Source.declarations_eq_ok_iff (source : Source) (declarations : Declarations) :
    source.declarations = .ok declarations ↔
      ∃ entries, Toml.read? source.text = some entries ∧
        Declarations.ofEntries entries = .ok declarations := by
  rw [Source.declarations]
  cases Toml.read? source.text with
  | none => simp
  | some entries =>
    simp only [Option.some_inj, exists_eq_left']
    cases Declarations.ofEntries entries with
    | error misfit => exact ⟨nofun, nofun⟩
    | ok found =>
      constructor
      · intro declared
        exact congrArg Except.ok (Except.ok.inj declared)
      · intro fits
        exact congrArg Except.ok (Except.ok.inj fits)

/-- Assembles the catalog of the declarations of a source. Success is logged at the end. -/
def Source.assemble (source : Source) (declarations : Declarations) :
    List Event × Except Error Catalog :=
  match Catalog.assemble .empty declarations.entries with
  | (events, .ok catalog) =>
    (events ++ [.parsedCatalog source.filename catalog.size], .ok catalog)
  | (events, .error (entry, fault)) => (events, .error (source.entryError entry fault))

/-- Reads the catalog of a source, with what is logged on the way. -/
def Source.read (source : Source) : List Event × Except Diagnostic Catalog :=
  match source.declarations with
  | .error error => ([], .error ⟨source, error⟩)
  | .ok declarations =>
    let (events, outcome) := source.assemble declarations
    (events, outcome.mapError (⟨source, ·⟩))

end Scaffold.Catalog
