/-
This file holds the ways in which a value can fail to fit the place where it
stands in a structured document, and their messages. The causes are the same
whatever notation the document is written in.
-/

import Scaffold.Decimal
import Scaffold.Text.Quoted

namespace Scaffold.Schema

/-- What stands at a place: a plain value, or the mere fact that a sequence or a map opens there. -/
inductive Found where
  | null
  | boolean (value : Bool)
  | integer (value : Int)
  /-- A floating-point number, by the digits that name it in its notation. -/
  | floating (digits : Text)
  /-- A number that has no value. -/
  | valueless
  | text (value : Text)
  | sequence
  | map
deriving DecidableEq

/-- What is wanted at a place. -/
inductive Wanted where
  | text
  | boolean
  | map
  /-- A record of a known name whose fields may also come as a sequence. -/
  | record (name : Text) (fields : List Text)
deriving DecidableEq

/-- Why a value does not fit. -/
inductive Fault where
  | unknownField (name : Text) (known : List Text)
  | duplicateField (name : Text)
  | missingField (name : Text)
  | wrongKind (found : Found) (wanted : Wanted)
  /-- A sequence has fewer elements than the record has fields. -/
  | tooShort (length : Nat) (wanted : Wanted)
  /-- A sequence has more elements than the record has fields. -/
  | tooLong (length : Nat)
deriving DecidableEq

/-- A name between backquotes. -/
def ticked (name : Text) : Text :=
  '`' :: name ++ ['`']

/-- Texts put side by side with a comma between any two. -/
def commaSeparated : List Text → Text
  | [] => []
  | [text] => text
  | text :: more => text ++ ", ".toList ++ commaSeparated more

/-- The wording of what stands at a place. -/
def Found.message : Found → Text
  | .null => "null".toList
  | .boolean true => "boolean `true`".toList
  | .boolean false => "boolean `false`".toList
  | .integer value => "integer ".toList ++ ticked (Text.integerText value)
  | .floating digits => "floating point ".toList ++ ticked digits
  | .valueless => "number without a value".toList
  | .text value => "string ".toList ++ Text.quoted value
  | .sequence => "sequence".toList
  | .map => "map".toList

/-- The wording of what is wanted at a place. -/
def Wanted.message : Wanted → Text
  | .text => "a string".toList
  | .boolean => "a boolean".toList
  | .map => "a map".toList
  | .record name _ => "struct ".toList ++ name

/-- The wording of a choice of names. -/
def oneOf : List Text → Text
  | [name] => ticked name
  | [first, second] => ticked first ++ " or ".toList ++ ticked second
  | names => "one of ".toList ++ commaSeparated (names.map ticked)

/-- The number of fields that a sequence in the place of a record must have. -/
def Wanted.elements : Wanted → Text
  | .record _ [_] => "1 element".toList
  | .record _ fields => Text.digitsOf fields.length ++ " elements".toList
  | _ => []

/-- The wording of a fault. -/
def Fault.message : Fault → Text
  | .unknownField name known =>
    "unknown field ".toList ++ ticked name ++ ", expected ".toList ++ oneOf known
  | .duplicateField name => "duplicate field ".toList ++ ticked name
  | .missingField name => "missing field ".toList ++ ticked name
  | .wrongKind found wanted =>
    "invalid type: ".toList ++ found.message ++ ", expected ".toList ++ wanted.message
  | .tooShort length wanted =>
    "invalid length ".toList ++ Text.digitsOf length ++ ", expected ".toList ++
      wanted.message ++ " with ".toList ++ wanted.elements
  | .tooLong length =>
    "invalid length ".toList ++ Text.digitsOf length ++
      ", expected fewer elements in array".toList

end Scaffold.Schema
