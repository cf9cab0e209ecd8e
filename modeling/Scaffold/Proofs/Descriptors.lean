/-
This file says when options can be built, and what they build, field by field. The
primary type is all that is asked for. A descriptor is complete: given back as
options, with every field spelled out, it builds itself again.
-/

import Scaffold.Scalar.Options

namespace Scaffold.Scalar

attribute [ext] Descriptor

namespace Options

/-! ### What is asked for, and what is built -/

/-- The options name a primary type that is not blank. -/
def HasPrimaryType (options : Options) : Prop :=
  ∃ primaryType, options.primaryType = some primaryType ∧ Text.HasContent primaryType

/-- The descriptor that options resolve to, given their primary type. -/
def resolved (options : Options) (primaryType : Text) : Descriptor where
  primaryType := primaryType
  isEnum := options.isEnum.getD false
  passedByReference := options.passedByReference.getD false
  secondaryType := options.secondaryType.getD primaryType
  secondaryReferenceType :=
    options.secondaryReferenceType.getD (options.secondaryType.getD primaryType)
  serializedType := options.serializedType.getD primaryType
  hasSerializerSetter := options.serializedType.all fun serializedType =>
    options.hasSerializerSetter.getD (serializedType = primaryType)
  scopedPrimaryType := options.scopedPrimaryType.getD primaryType
  secondaryDefault := options.secondaryDefault
  primaryDefault := options.primaryDefault
  omitIfDefault := options.omitIfDefault.getD false

/-- A type that is serialized as it is has a setter. -/
theorem hasSerializerSetter_of_none {options : Options}
    (absent : options.serializedType = none) (primaryType : Text) :
    (options.resolved primaryType).hasSerializerSetter = true := by
  rw [resolved, absent, Option.all_none]

theorem hasSerializerSetter_of_some {options : Options} {serializedType : Text}
    (given : options.serializedType = some serializedType) (primaryType : Text) :
    (options.resolved primaryType).hasSerializerSetter =
      options.hasSerializerSetter.getD (serializedType = primaryType) := by
  rw [resolved, given, Option.all_some]

theorem build_eq_resolved {options : Options} {primaryType : Text}
    (given : options.primaryType = some primaryType) (content : Text.HasContent primaryType) :
    options.build = .ok (options.resolved primaryType) := by
  have visible : ¬ Text.allBlank primaryType = true := by
    rw [(Text.hasContent_iff primaryType).mp content]
    exact Bool.false_ne_true
  simp only [build, given, if_neg visible]
  cases serialized : options.serializedType with
  | none => simp [resolved, serialized]
  | some serializedType => simp [resolved, serialized]

theorem build_of_not_hasPrimaryType {options : Options} (unnamed : ¬ options.HasPrimaryType) :
    options.build = .error .missingPrimaryType := by
  cases given : options.primaryType with
  | none => simp only [build, given]
  | some primaryType =>
    have blank : Text.allBlank primaryType = true := by
      rw [← Bool.not_eq_false, ← Text.hasContent_iff]
      exact fun content => unnamed ⟨primaryType, given, content⟩
    simp only [build, given, if_pos blank]

theorem exists_build_iff (options : Options) :
    (∃ descriptor, options.build = .ok descriptor) ↔ options.HasPrimaryType := by
  constructor
  · rintro ⟨descriptor, built⟩
    refine Classical.byContradiction fun unnamed => ?_
    rw [build_of_not_hasPrimaryType unnamed] at built
    cases built
  · rintro ⟨primaryType, given, content⟩
    exact ⟨_, build_eq_resolved given content⟩

end Options

/-! ### Enumerations -/

/-- The descriptor of an enumeration: all of its types are its name, but for the scoped one. -/
def Descriptor.ofEnumeration (enumName scopedName primaryDefault : Text) : Descriptor where
  primaryType := enumName
  isEnum := true
  passedByReference := false
  secondaryType := enumName
  secondaryReferenceType := enumName
  serializedType := enumName
  hasSerializerSetter := true
  scopedPrimaryType := scopedName
  secondaryDefault := none
  primaryDefault := some primaryDefault
  omitIfDefault := false

theorem Options.build_ofEnumeration {enumName : Text} (content : Text.HasContent enumName)
    (scopedName primaryDefault : Text) :
    (Options.ofEnumeration enumName scopedName primaryDefault).build =
      .ok (.ofEnumeration enumName scopedName primaryDefault) :=
  build_eq_resolved rfl content

/-! ### Descriptors as options -/

/-- A descriptor with all of its fields given as options. -/
def Descriptor.toOptions (descriptor : Descriptor) : Options where
  primaryType := some descriptor.primaryType
  isEnum := some descriptor.isEnum
  passedByReference := some descriptor.passedByReference
  secondaryType := some descriptor.secondaryType
  secondaryReferenceType := some descriptor.secondaryReferenceType
  serializedType := some descriptor.serializedType
  hasSerializerSetter := some descriptor.hasSerializerSetter
  scopedPrimaryType := some descriptor.scopedPrimaryType
  secondaryDefault := descriptor.secondaryDefault
  primaryDefault := descriptor.primaryDefault
  omitIfDefault := some descriptor.omitIfDefault

/-- What was built builds itself again. The serialized type is given now, so the setter is taken at
its word. -/
theorem Options.build_toOptions {options : Options} {descriptor : Descriptor}
    (built : options.build = .ok descriptor) : descriptor.toOptions.build = .ok descriptor := by
  obtain ⟨primaryType, given, content⟩ := options.exists_build_iff.mp ⟨descriptor, built⟩
  rw [build_eq_resolved given content] at built
  cases built
  exact build_eq_resolved rfl content

end Scaffold.Scalar
