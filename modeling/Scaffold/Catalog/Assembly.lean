/-
This file assembles a catalog from its entries, one after the other, logs an event for
each of them, and stops at the first entry that has a fault: a name that no entry may
have, a name that is there already, or options that nothing can be built from.
-/

import Scaffold.Catalog.Declarations

namespace Scaffold

open Scalar (Descriptor)

/-- The descriptors of scalar types by their names. -/
abbrev Catalog := Register Descriptor

namespace Catalog

/-! ### Names -/

/-- What is wrong with a name. -/
inductive NameFault where
  | empty
  | badStart
  | badCharacter
deriving DecidableEq

/-- The wording of what is wrong with a name. -/
def NameFault.message : NameFault → Text
  | .empty => "name cannot be empty".toList
  | .badStart => "name must start with a letter or underscore".toList
  | .badCharacter => "name must contain only letters, numbers, and underscores".toList

/-- Whether a name may start with a character: an ASCII letter or an underscore. -/
def isNameStart (c : Char) : Bool :=
  c.isAlpha ∨ c = '_'

/-- Whether a name may go on with a character: an ASCII letter, a digit or an underscore. -/
def isNameChar (c : Char) : Bool :=
  c.isAlphanum ∨ c = '_'

/-- What is wrong with a name, if anything. The start is looked at first. -/
def nameFault? : Text → Option NameFault
  | [] => some .empty
  | c :: rest =>
    if isNameStart c then
      if rest.all isNameChar then none else some .badCharacter
    else some .badStart

/-! ### Events -/

/-- Something that happened while a catalog was assembled. -/
inductive Event where
  | registeredScalar (name primaryType serializedType : Text)
  | registeredEnum (name scopedType : Text)
  | parsedCatalog (filename : Text) (count : Nat)
deriving DecidableEq

/-- How much an event matters. -/
inductive Level where
  | debug
  | info
deriving DecidableEq

/-- The name of a level. -/
def Level.name : Level → Text
  | .debug => "DEBUG".toList
  | .info => "INFO".toList

namespace Event

/-- How much an event matters. -/
def level : Event → Level
  | .registeredScalar _ _ _ | .registeredEnum _ _ => .debug
  | .parsedCatalog _ _ => .info

/-- The wording of an event. -/
def message : Event → Text
  | .registeredScalar _ _ _ => "registered scalar type".toList
  | .registeredEnum _ _ => "registered enum scalar type".toList
  | .parsedCatalog _ _ => "parsed scalar catalog".toList

/-- The event of an entry that was resolved to a descriptor. -/
def registered (entry : Entry) (descriptor : Descriptor) : Event :=
  match entry.table with
  | .scalars => .registeredScalar entry.name descriptor.primaryType descriptor.serializedType
  | .enums => .registeredEnum entry.name descriptor.scopedPrimaryType

end Event

/-! ### Entries -/

/-- What is wrong with an entry. -/
inductive EntryFault where
  | invalidName (fault : NameFault)
  /-- The name is there already. -/
  | duplicate
  | unbuildable (cause : Scalar.BuildError)
deriving DecidableEq

/-- The descriptor that an entry adds to a catalog. The name is looked at first, and the options last.
The names of one table are distinct, so that only an enumeration can meet its name in the catalog. -/
def Entry.resolve (entry : Entry) (catalog : Catalog) : Except EntryFault Descriptor :=
  match nameFault? entry.name with
  | some fault => .error (.invalidName fault)
  | none =>
    if catalog.contains entry.name then .error .duplicate
    else entry.options.build.mapError .unbuildable

/-- Adds entries to a catalog. The events of the entries in front of a fault are kept. -/
def assemble : Catalog → List Entry → List Event × Except (Entry × EntryFault) Catalog
  | catalog, [] => ([], .ok catalog)
  | catalog, entry :: rest =>
    match entry.resolve catalog with
    | .error fault => ([], .error (entry, fault))
    | .ok descriptor =>
      let (events, outcome) := assemble (catalog.insert entry.name descriptor) rest
      (.registered entry descriptor :: events, outcome)

end Catalog

end Scaffold
