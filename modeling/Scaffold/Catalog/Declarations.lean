/-
This file holds what a catalog declares before anything is resolved: scalar types
by their options, enumerations by their scope and default, and the separator that
stands between a scope and a name.
-/

import Scaffold.Register
import Scaffold.Scalar.Options

namespace Scaffold.Catalog

open Scalar (Options)

/-- An enumeration that is declared inside a scope and stored as an integer. Its name is its key if it
has none of its own, so that several scopes can have enumerations of one name. -/
structure Enumeration where
  name : Option Text
  scope : Option Text
  default : Text
deriving DecidableEq

/-- All that a catalog declares. -/
structure Declarations where
  separator : Option Text
  scalars : Register Options
  enums : Register Enumeration

/-- The separator of catalogs that do not set one. -/
def defaultSeparator : Text :=
  "::".toList

/-- What stands between a scope and a name. -/
def Declarations.scopeSeparator (declarations : Declarations) : Text :=
  declarations.separator.getD defaultSeparator

namespace Enumeration

/-- The name of the enumeration that stands under a key. -/
def nameAt (enumeration : Enumeration) (key : Text) : Text :=
  enumeration.name.getD key

/-- The name of the enumeration as seen from outside its scope. An empty scope is as good as none. -/
def scopedNameAt (enumeration : Enumeration) (separator key : Text) : Text :=
  match enumeration.scope with
  | some (c :: rest) => c :: rest ++ separator ++ enumeration.nameAt key
  | _ => enumeration.nameAt key

/-- The options of the scalar type that the enumeration declares. -/
def options (enumeration : Enumeration) (separator key : Text) : Options :=
  .ofEnumeration (enumeration.nameAt key) (enumeration.scopedNameAt separator key)
    enumeration.default

end Enumeration

/-! ### One entry after the other -/

/-- The table that an entry stands in. -/
inductive Table where
  | scalars
  | enums
deriving DecidableEq

/-- The name of a table. -/
def Table.name : Table → Text
  | .scalars => "scalars".toList
  | .enums => "enums".toList

/-- An entry of a catalog. -/
structure Entry where
  table : Table
  name : Text
  /-- The options of the scalar type that it declares. -/
  options : Options
deriving DecidableEq

/-- The entries of a catalog: the scalar types, and behind them the enumerations. -/
def Declarations.entries (declarations : Declarations) : List Entry :=
  (declarations.scalars.entries.map fun (name, options) => ⟨.scalars, name, options⟩) ++
    declarations.enums.entries.map fun (key, enumeration) =>
      ⟨.enums, key, enumeration.options declarations.scopeSeparator key⟩

end Scaffold.Catalog
