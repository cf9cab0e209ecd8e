/-
This file names the options of a scalar type. Seven of them hold a text and four
of them a truth value.
-/

import Scaffold.Text.Lines

namespace Scaffold.Scalar

/-- An option that holds a text. -/
inductive TextField where
  | primaryType
  | secondaryType
  | secondaryReferenceType
  | serializedType
  | scopedPrimaryType
  | secondaryDefault
  | primaryDefault
deriving DecidableEq

/-- An option that holds a truth value. -/
inductive FlagField where
  | isEnum
  | passedByReference
  | hasSerializerSetter
  | omitIfDefault
deriving DecidableEq

/-- An option of a scalar type. -/
inductive Field where
  | text (field : TextField)
  | flag (field : FlagField)
deriving DecidableEq

namespace Field

/-- Every option, in the order in which they are declared. -/
def all : List Field :=
  [.text .primaryType, .flag .isEnum, .flag .passedByReference, .text .secondaryType,
   .text .secondaryReferenceType, .text .serializedType, .flag .hasSerializerSetter,
   .text .scopedPrimaryType, .text .secondaryDefault, .text .primaryDefault, .flag .omitIfDefault]

/-- The name under which a document gives an option. -/
def name : Field → Text
  | .text .primaryType => "primary_type".toList
  | .flag .isEnum => "is_enum".toList
  | .flag .passedByReference => "passed_by_reference".toList
  | .text .secondaryType => "secondary_type".toList
  | .text .secondaryReferenceType => "secondary_reference_type".toList
  | .text .serializedType => "serialized_type".toList
  | .flag .hasSerializerSetter => "has_serializer_setter".toList
  | .text .scopedPrimaryType => "scoped_primary_type".toList
  | .text .secondaryDefault => "secondary_default".toList
  | .text .primaryDefault => "primary_default".toList
  | .flag .omitIfDefault => "omit_if_default".toList

/-- The names of all options, in the order of their declaration. -/
def names : List Text :=
  all.map name

/-- The option of a given name. -/
def ofName? (wanted : Text) : Option Field :=
  all.find? fun field => field.name = wanted

/-- Every option is in the list. -/
theorem mem_all (field : Field) : field ∈ all := by
  rcases field with field | field <;> cases field <;> decide

theorem nodup_all : all.Nodup := by
  decide

/-- No two options have the same name. -/
theorem ofName?_name (field : Field) : ofName? field.name = some field := by
  rcases field with field | field <;> cases field <;> decide

end Field

end Scaffold.Scalar
