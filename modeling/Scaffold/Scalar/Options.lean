/-
This file holds the options of a scalar type, each of them optional, and the
descriptor that is resolved from them once and for all.
-/

import Scaffold.Scalar.Field

namespace Scaffold.Scalar

/-- The options of a scalar type as they are given. An absent option takes its default when the
descriptor is built. -/
structure Options where
  primaryType : Option Text := none
  isEnum : Option Bool := none
  passedByReference : Option Bool := none
  secondaryType : Option Text := none
  secondaryReferenceType : Option Text := none
  serializedType : Option Text := none
  hasSerializerSetter : Option Bool := none
  scopedPrimaryType : Option Text := none
  secondaryDefault : Option Text := none
  primaryDefault : Option Text := none
  omitIfDefault : Option Bool := none
deriving DecidableEq

/-- How a scalar field is spelled in each of its representations. -/
structure Descriptor where
  /-- The type name in the primary language. -/
  primaryType : Text
  /-- Whether the value is an enumeration that is stored as an integer. -/
  isEnum : Bool
  /-- Whether constructors and accessors take the type by reference. -/
  passedByReference : Bool
  /-- The type name in the secondary language. -/
  secondaryType : Text
  /-- The type name in the secondary language where a reference type is required. -/
  secondaryReferenceType : Text
  /-- The type name in the serialized schema. -/
  serializedType : Text
  /-- Whether the serialized form has a direct setter for the field. -/
  hasSerializerSetter : Bool
  /-- The primary type name with its enclosing scope. -/
  scopedPrimaryType : Text
  /-- The default expression in the secondary language. -/
  secondaryDefault : Option Text
  /-- The default expression in the primary language. -/
  primaryDefault : Option Text
  /-- Whether serialization skips the field where it holds its default. -/
  omitIfDefault : Bool
deriving DecidableEq

/-- Whether the serialized representation differs from the primary one. -/
def Descriptor.hasRepresentationChange (descriptor : Descriptor) : Bool :=
  decide (descriptor.serializedType ≠ descriptor.primaryType)

/-- Why no descriptor can be built. -/
inductive BuildError where
  /-- There is no primary type, or its name is blank. -/
  | missingPrimaryType
deriving DecidableEq

/-- The wording of a build error. -/
def BuildError.message : BuildError → Text
  | .missingPrimaryType => "scalar type requires a non-empty primary type".toList

namespace Options

/-- The value of an option that holds a text. -/
def text? (options : Options) : TextField → Option Text
  | .primaryType => options.primaryType
  | .secondaryType => options.secondaryType
  | .secondaryReferenceType => options.secondaryReferenceType
  | .serializedType => options.serializedType
  | .scopedPrimaryType => options.scopedPrimaryType
  | .secondaryDefault => options.secondaryDefault
  | .primaryDefault => options.primaryDefault

/-- The value of an option that holds a truth value. -/
def flag? (options : Options) : FlagField → Option Bool
  | .isEnum => options.isEnum
  | .passedByReference => options.passedByReference
  | .hasSerializerSetter => options.hasSerializerSetter
  | .omitIfDefault => options.omitIfDefault

/-- The options with one text overwritten. -/
def setText (options : Options) (field : TextField) (value : Text) : Options :=
  match field with
  | .primaryType => { options with primaryType := some value }
  | .secondaryType => { options with secondaryType := some value }
  | .secondaryReferenceType => { options with secondaryReferenceType := some value }
  | .serializedType => { options with serializedType := some value }
  | .scopedPrimaryType => { options with scopedPrimaryType := some value }
  | .secondaryDefault => { options with secondaryDefault := some value }
  | .primaryDefault => { options with primaryDefault := some value }

/-- The options with one truth value overwritten. -/
def setFlag (options : Options) (field : FlagField) (value : Bool) : Options :=
  match field with
  | .isEnum => { options with isEnum := some value }
  | .passedByReference => { options with passedByReference := some value }
  | .hasSerializerSetter => { options with hasSerializerSetter := some value }
  | .omitIfDefault => { options with omitIfDefault := some value }

/-! ### Each field by itself -/

theorem text?_setText (options : Options) (field other : TextField) (value : Text) :
    (options.setText field value).text? other =
      if other = field then some value else options.text? other := by
  cases field <;> cases other <;> rfl

@[simp] theorem flag?_setText (options : Options) (field : TextField) (other : FlagField)
    (value : Text) : (options.setText field value).flag? other = options.flag? other := by
  cases field <;> cases other <;> rfl

@[simp] theorem text?_setFlag (options : Options) (field : FlagField) (other : TextField)
    (value : Bool) : (options.setFlag field value).text? other = options.text? other := by
  cases field <;> cases other <;> rfl

theorem flag?_setFlag (options : Options) (field other : FlagField) (value : Bool) :
    (options.setFlag field value).flag? other =
      if other = field then some value else options.flag? other := by
  cases field <;> cases other <;> rfl

/-- Options that agree on every field are the same. -/
theorem eq_of_fields {first second : Options}
    (texts : ∀ field, first.text? field = second.text? field)
    (flags : ∀ field, first.flag? field = second.flag? field) : first = second := by
  cases first
  cases second
  rw [mk.injEq]
  exact ⟨texts .primaryType, flags .isEnum, flags .passedByReference, texts .secondaryType,
    texts .secondaryReferenceType, texts .serializedType, flags .hasSerializerSetter,
    texts .scopedPrimaryType, texts .secondaryDefault, texts .primaryDefault, flags .omitIfDefault⟩

/-! ### Building -/

/-- Resolves every default. The secondary type and the scoped name fall back to the primary type, and
the secondary reference type to the secondary type. A field whose serialized type is not given is
serialized as it is, so that it always has a direct setter; where it is given, the setter is there
unless the types differ or the options say otherwise. -/
def build (options : Options) : Except BuildError Descriptor :=
  match options.primaryType with
  | none => .error .missingPrimaryType
  | some primaryType =>
    if Text.allBlank primaryType then .error .missingPrimaryType
    else
      let secondaryType := options.secondaryType.getD primaryType
      let (serializedType, hasSerializerSetter) :=
        match options.serializedType with
        | some serializedType =>
          (serializedType, options.hasSerializerSetter.getD (serializedType = primaryType))
        | none => (primaryType, true)
      .ok
        { primaryType
          isEnum := options.isEnum.getD false
          passedByReference := options.passedByReference.getD false
          secondaryType
          secondaryReferenceType := options.secondaryReferenceType.getD secondaryType
          serializedType
          hasSerializerSetter
          scopedPrimaryType := options.scopedPrimaryType.getD primaryType
          secondaryDefault := options.secondaryDefault
          primaryDefault := options.primaryDefault
          omitIfDefault := options.omitIfDefault.getD false }

/-- Whether two options are resolved alike: to equal descriptors, or to the same failure. -/
def buildsAlike (first second : Options) : Bool :=
  match first.build, second.build with
  | .ok first, .ok second => first = second
  | .error first, .error second => first = second
  | _, _ => false

/-- The options that name a primary type and nothing else. -/
def ofPrimaryType (primaryType : Text) : Options :=
  { primaryType := some primaryType }

/-- The options of an enumeration that is declared inside another type, where `scopedName` is its
name as seen from outside. -/
def ofEnumeration (enumName scopedName primaryDefault : Text) : Options :=
  { primaryType := some enumName
    isEnum := some true
    scopedPrimaryType := some scopedName
    primaryDefault := some primaryDefault }

end Options

end Scaffold.Scalar
