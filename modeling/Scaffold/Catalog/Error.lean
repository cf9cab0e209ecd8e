/-
This file holds the reasons why a catalog is rejected, and what is shown for each
of them: a message, a code, advice, and labels on the text.

So that a label can point at an entry, its name is looked for in the text of the
catalog. The text is searched and not read: a hit inside a comment or a string is as
good as any other.
-/

import Scaffold.Scalar.Options
import Scaffold.Schema.Fault
import Scaffold.Text.Utf8

namespace Scaffold.Catalog

/-! ### Places in the text -/

/-- A stretch of a text, in bytes of UTF-8. -/
structure Region where
  offset : Nat
  length : Nat
deriving DecidableEq

/-- The offset of a name in the first header that spells it with a given text around it. -/
def locateHeader? (source table name around : Text) : Option Nat :=
  let opening := '[' :: table ++ '.' :: around
  (Text.find? (opening ++ name ++ around ++ [']']) source).map (· + Text.byteLength opening)

/-- Whether a text starts with a name and an equals sign behind it. There may be white space in
between. -/
def assigns (name text : Text) : Bool :=
  name.isPrefixOf text ∧ (Text.trimStart (text.drop name.length)).head? = some '='

/-- The offset of a name in the first line that assigns to it inside a table, where a table lasts from
its header to the next line that starts with a bracket. The search goes through lines that start at a
given offset, and is told whether the first of them lies in the table. -/
def locateLine? (table name : Text) : Bool → Nat → List Text → Option Nat
  | _, _, [] => none
  | inTable, offset, line :: rest =>
    let trimmed := Text.trimStart line
    if trimmed.head? = some '[' then
      locateLine? table name (('[' :: table ++ [']']).isPrefixOf trimmed)
        (offset + Text.byteLength line) rest
    else if inTable ∧ assigns name trimmed then
      some (offset + Text.byteLength (line.takeWhile Text.isBlank))
    else locateLine? table name inTable (offset + Text.byteLength line) rest

/-- Where a name of a table is declared: in a header of its own, which may quote it, or else in a line
of the table. -/
def locate? (source table name : Text) : Option Region :=
  (locateHeader? source table name [] <|> locateHeader? source table name ['"'] <|>
    locateHeader? source table name ['\''] <|>
    locateLine? table name false 0 (Text.wholeLines source)).map (⟨·, Text.byteLength name⟩)

/-! ### Errors -/

/-- The text of a catalog and the file name that it goes by. -/
structure Source where
  text : Text
  filename : Text
deriving DecidableEq

/-- Why a catalog is rejected. -/
inductive Error where
  /-- The text is no document. -/
  | malformed
  /-- Something in the document does not fit its place. -/
  | unfit (fault : Schema.Fault) (place : Region)
  | missingPrimaryType (name : Text) (place : Option Region) (cause : Scalar.BuildError)
  | duplicateScalar (name : Text) (first second : Option Region)
  | invalidName (name reason : Text) (place : Option Region)
deriving DecidableEq

/-- An error and the source that it is about. -/
structure Diagnostic where
  source : Source
  error : Error
deriving DecidableEq

/-- A remark on a stretch of the source. -/
structure Label where
  text : Text
  place : Region
deriving DecidableEq

/-- A remark on a stretch of the source, where the stretch is known. -/
def labelAt (text : String) (place : Option Region) : List Label :=
  (place.map (⟨text.toList, ·⟩)).toList

/-- A name between single quotes. -/
def inQuotes (name : Text) : Text :=
  '\'' :: name ++ ['\'']

namespace Error

/-- The wording of an error. -/
def message : Error → Text
  | .malformed | .unfit _ _ => "failed to parse scalar catalog".toList
  | .missingPrimaryType name _ _ =>
    "scalar type ".toList ++ inQuotes name ++ " has no primary type".toList
  | .duplicateScalar name _ _ =>
    "scalar type ".toList ++ inQuotes name ++ " is declared more than once".toList
  | .invalidName name _ _ => "invalid scalar type name ".toList ++ inQuotes name

/-- The code under which an error is known. -/
def code : Error → Text
  | .malformed | .unfit _ _ => "treegen::parse_error".toList
  | .missingPrimaryType _ _ _ => "treegen::missing_primary_type".toList
  | .duplicateScalar _ _ _ => "treegen::duplicate_scalar".toList
  | .invalidName _ _ _ => "treegen::invalid_name".toList

/-- Advice on how to mend the catalog. -/
def help? : Error → Option Text
  | .malformed | .unfit _ _ => none
  | .missingPrimaryType name _ _ =>
    some ("give ".toList ++ inQuotes name ++
      " a non-empty `primary_type`, or a non-empty `name` for an enum".toList)
  | .duplicateScalar _ _ _ =>
    some "a name may appear under either [scalars] or [enums], not both".toList
  | .invalidName _ reason _ =>
    some (reason ++
      (". Use only letters, numbers, and underscores, starting with a letter or " ++
        "underscore.").toList)

/-- The remarks on the source. A place that was not found leaves its remark out. -/
def labels : Error → List Label
  | .malformed => []
  | .unfit _ place => labelAt "parse error here" (some place)
  | .missingPrimaryType _ place _ => labelAt "declared here" place
  | .duplicateScalar _ first second =>
    labelAt "first declared here" first ++ labelAt "declared again here" second
  | .invalidName _ _ place => labelAt "invalid name" place

end Error

end Scaffold.Catalog
