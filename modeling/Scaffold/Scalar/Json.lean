/-
This file writes descriptors as JSON, and reads the options of a scalar type from
JSON.

Options come as an object with a member for each option that is given, or as an
array of all of them in the order of their declaration; null is as good as
absent. Reading goes through the text from left to right and stops at the first
fault it meets, whether the text is no JSON there or a value does not fit.
-/

import Scaffold.Json.Value
import Scaffold.Scalar.Options
import Scaffold.Schema.Fault

namespace Scaffold.Scalar

open Schema (Found Wanted Fault)

/-! ### Writing -/

/-- The written value of a field of a descriptor. -/
def Descriptor.written (descriptor : Descriptor) : Field → Text
  | .text .primaryType => Json.writeString descriptor.primaryType
  | .flag .isEnum => Json.writeBoolean descriptor.isEnum
  | .flag .passedByReference => Json.writeBoolean descriptor.passedByReference
  | .text .secondaryType => Json.writeString descriptor.secondaryType
  | .text .secondaryReferenceType => Json.writeString descriptor.secondaryReferenceType
  | .text .serializedType => Json.writeString descriptor.serializedType
  | .flag .hasSerializerSetter => Json.writeBoolean descriptor.hasSerializerSetter
  | .text .scopedPrimaryType => Json.writeString descriptor.scopedPrimaryType
  | .text .secondaryDefault => Json.writeOptional descriptor.secondaryDefault
  | .text .primaryDefault => Json.writeOptional descriptor.primaryDefault
  | .flag .omitIfDefault => Json.writeBoolean descriptor.omitIfDefault

/-- A descriptor as a JSON object of all its fields, in the order of their declaration. An absent
default is null. -/
def Descriptor.toJson (descriptor : Descriptor) : Text :=
  Json.writeObject (Field.all.map fun field => (field.name, descriptor.written field))

/-! ### Reading -/

/-- Why no options can be read. -/
inductive ReadError where
  /-- The text is not one complete JSON document. -/
  | malformed
  | unfit (fault : Fault)
deriving DecidableEq

/-- The record of all options, as a message names it. -/
def Options.wanted : Wanted :=
  .record "ScalarTypeOptions".toList Field.names

/-- Gives an option the value that stands in its place. Null leaves it absent. -/
def Options.assign (options : Options) : Field → Found → Except Fault Options
  | .text _, .null => .ok options
  | .text field, .text value => .ok (options.setText field value)
  | .text _, found => .error (.wrongKind found .text)
  | .flag _, .null => .ok options
  | .flag field, .boolean value => .ok (options.setFlag field value)
  | .flag _, found => .error (.wrongKind found .boolean)

/-- What a token shows where a value is wanted. A bracket shows what opens there, before anything
inside is read. No value starts with any other punctuation. -/
def found? : Json.Token → Option Found
  | .null => some .null
  | .boolean value => some (.boolean value)
  | .number (.integer value) => some (.integer value)
  | .number (.floating negative magnitude) =>
    some (.floating (Json.Number.floating negative magnitude).text)
  | .string value => some (.text value)
  | .openBracket => some .sequence
  | .openBrace => some .map
  | _ => none

namespace Options

/-- Gives an option the value that starts with a token. -/
def assignToken (options : Options) (field : Field) (token : Json.Token) :
    Except ReadError Options :=
  match found? token with
  | none => .error .malformed
  | some found =>
    match options.assign field found with
    | .ok options => .ok options
    | .error fault => .error (.unfit fault)

/-- What was read, if the document ends there. -/
def finish (options : Options) : List Json.Token → Except ReadError Options
  | [] => .ok options
  | _ => .error .malformed

/-- Reads the members of an object, from the name of one of them on. A name that is not known or that
was there before is a fault as soon as it is read. -/
def readMembers (seen : List Field) (options : Options) :
    List Json.Token → Except ReadError Options
  | .string name :: rest =>
    match Field.ofName? name with
    | none => .error (.unfit (.unknownField name Field.names))
    | some field =>
      if field ∈ seen then .error (.unfit (.duplicateField name))
      else
        match rest with
        | .colon :: value :: rest =>
          match options.assignToken field value with
          | .error fault => .error fault
          | .ok options =>
            match rest with
            | .comma :: rest => readMembers (field :: seen) options rest
            | .closeBrace :: rest => options.finish rest
            | _ => .error .malformed
        | _ => .error .malformed
  | _ => .error .malformed

/-- Reads the elements of an array, from the value of the first of the given fields on. -/
def readElements (options : Options) : List Field → List Json.Token → Except ReadError Options
  | field :: fields, value :: rest =>
    match options.assignToken field value with
    | .error fault => .error fault
    | .ok options =>
      match fields, rest with
      | [], .closeBracket :: rest => options.finish rest
      | _ :: _, .closeBracket :: _ =>
        .error (.unfit (.tooShort (Field.all.length - fields.length) wanted))
      | _ :: _, .comma :: rest => readElements options fields rest
      | _, _ => .error .malformed
  | _, _ => .error .malformed

/-- Reads options from the tokens of a document. -/
def ofTokens : List Json.Token → Except ReadError Options
  | .openBrace :: .closeBrace :: rest => finish {} rest
  | .openBrace :: rest => readMembers [] {} rest
  | .openBracket :: .closeBracket :: _ => .error (.unfit (.tooShort 0 wanted))
  | .openBracket :: rest => readElements {} Field.all rest
  | token :: _ =>
    match found? token with
    | none => .error .malformed
    | some found => .error (.unfit (.wrongKind found wanted))
  | [] => .error .malformed

/-- Reads options from a JSON text. -/
def ofJson (text : Text) : Except ReadError Options :=
  ofTokens (Json.tokens text)

end Options

/-! ### Options that were read before -/

/-- What a value shows in its place. -/
def foundValue : Json.Value → Found
  | .null => .null
  | .boolean value => .boolean value
  | .number (.integer value) => .integer value
  | .number (.floating negative magnitude) =>
    .floating (Json.Number.floating negative magnitude).text
  | .string value => .text value
  | .array _ => .sequence
  | .object _ => .map

/-- Puts a member among members that are sorted by name. A member of the same name is replaced. -/
def insertMember (member : Text × Json.Value) :
    List (Text × Json.Value) → List (Text × Json.Value)
  | [] => [member]
  | other :: more =>
    if member.1 = other.1 then member :: more
    else if member.1 < other.1 then member :: other :: more
    else other :: insertMember member more

namespace Options

/-- Assigns members one after the other. -/
def assignMembers (options : Options) : List (Text × Json.Value) → Except Fault Options
  | [] => .ok options
  | (name, value) :: rest =>
    match Field.ofName? name with
    | none => .error (.unknownField name Field.names)
    | some field =>
      match options.assign field (foundValue value) with
      | .error fault => .error fault
      | .ok options => assignMembers options rest

/-- Assigns elements to fields in order. There has to be an element for every field. -/
def assignElements (options : Options) : List Field → List Json.Value → Except Fault Options
  | [], _ => .ok options
  | fields, [] => .error (.tooShort (Field.all.length - fields.length) wanted)
  | field :: fields, value :: rest =>
    match options.assign field (foundValue value) with
    | .error fault => .error fault
    | .ok options => assignElements options fields rest

/-- Reads options from a JSON value. The members of an object are visited in the order of their
names, and an array may not have more elements than there are options. -/
def ofValue : Json.Value → Except Fault Options
  | .object members => assignMembers {} (members.foldl (fun sorted member => insertMember member sorted) [])
  | .array elements =>
    match assignElements {} Field.all elements with
    | .error fault => .error fault
    | .ok options =>
      if Field.all.length < elements.length then .error (.tooLong elements.length)
      else .ok options
  | value => .error (.wrongKind (foundValue value) wanted)

end Options

end Scaffold.Scalar
