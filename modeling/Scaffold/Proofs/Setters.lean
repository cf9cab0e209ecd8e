/-
This file proves when a serialized form has a direct setter. It has one exactly if
the representation does not change, unless options that name the serialized type say
otherwise. Nothing else can take the setter away: a type without a serialized type of
its own has one, and so has every enumeration.
-/

import Scaffold.Proofs.Arrangement

namespace Scaffold.Scalar

/-! ### Setters and changes of representation -/

theorem Descriptor.not_hasRepresentationChange (descriptor : Descriptor) :
    (!descriptor.hasRepresentationChange) =
      decide (descriptor.serializedType = descriptor.primaryType) := by
  rw [hasRepresentationChange, decide_not, Bool.not_not]

/-- The descriptor has a setter, and what is serialized is the primary type. -/
def Descriptor.SerializedAsIs (descriptor : Descriptor) : Prop :=
  descriptor.hasSerializerSetter = true ∧ descriptor.hasRepresentationChange = false

/-- The options name a serialized type, and what they say about the setter is not what would follow
from that type. -/
def Options.OverridesSetter (options : Options) : Prop :=
  ∃ serializedType flag, options.serializedType = some serializedType ∧
    options.hasSerializerSetter = some flag ∧
      flag ≠ decide (options.primaryType = some serializedType)

/-- What options that build a descriptor have to do with its setter. -/
structure Options.DecidesSetter (options : Options) (descriptor : Descriptor) : Prop where
  differs : descriptor.hasSerializerSetter ≠ (!descriptor.hasRepresentationChange) ↔
    options.OverridesSetter
  explicit : descriptor.hasSerializerSetter = false →
    ∃ serializedType, options.serializedType = some serializedType
  named : Text.HasContent descriptor.primaryType

namespace Options

/-- A type without a serialized type of its own is serialized as it is. -/
theorem serializedAsIs_of_none {options : Options} (absent : options.serializedType = none)
    (primaryType : Text) : (options.resolved primaryType).SerializedAsIs := by
  refine ⟨hasSerializerSetter_of_none absent primaryType, ?_⟩
  rw [← Bool.not_eq_true', Descriptor.not_hasRepresentationChange, resolved, absent,
    Option.getD_none, decide_eq_true rfl]

theorem differs_iff_overridesSetter {options : Options} {primaryType : Text}
    (given : options.primaryType = some primaryType) :
    (options.resolved primaryType).hasSerializerSetter ≠
        (!(options.resolved primaryType).hasRepresentationChange) ↔ options.OverridesSetter := by
  cases serialized : options.serializedType with
  | none =>
    obtain ⟨setter, same⟩ := serializedAsIs_of_none serialized primaryType
    simp [OverridesSetter, serialized, setter, same]
  | some serializedType =>
    rw [hasSerializerSetter_of_some serialized, Descriptor.not_hasRepresentationChange]
    cases flag : options.hasSerializerSetter <;>
      simp [OverridesSetter, resolved, serialized, given, flag, eq_comm]

theorem decidesSetter_of_build {options : Options} {descriptor : Descriptor}
    (built : options.build = .ok descriptor) : options.DecidesSetter descriptor := by
  obtain ⟨primaryType, given, content⟩ := options.exists_build_iff.mp ⟨descriptor, built⟩
  rw [build_eq_resolved given content] at built
  cases built
  refine ⟨differs_iff_overridesSetter given, fun unset => ?_, content⟩
  cases serialized : options.serializedType with
  | none =>
    rw [hasSerializerSetter_of_none serialized] at unset
    cases unset
  | some serializedType => exact ⟨serializedType, rfl⟩

theorem serializedAsIs_of_build {options : Options} {descriptor : Descriptor}
    (absent : options.serializedType = none) (built : options.build = .ok descriptor) :
    descriptor.SerializedAsIs := by
  obtain ⟨primaryType, given, content⟩ := options.exists_build_iff.mp ⟨descriptor, built⟩
  rw [build_eq_resolved given content] at built
  cases built
  exact serializedAsIs_of_none absent primaryType

end Options

end Scaffold.Scalar

namespace Scaffold.Catalog

open Scalar (Descriptor Options)

/-! ### Catalogs -/

/-- Every entry of an accepted catalog was built from what is declared under its name. -/
theorem adds_of_read {source : Source} {declarations : Declarations}
    (declared : source.declarations = .ok declarations) {catalog : Catalog}
    (read : source.read.2 = .ok catalog) :
    List.Forall₂ Entry.Adds declarations.entries catalog.entries := by
  have builds := (builds_of_read declared read).2
  rw [Declarations.listing, List.forall₂_map_left_iff] at builds
  exact builds

/-- Whatever builds a descriptor, there is a setter exactly if the representation does not change,
unless the options name the serialized type and speak against what would follow from it. So only
options that name the serialized type can leave a descriptor without a setter. What is built from a
primary type alone, or for an enumeration, has one and is serialized as it is. The entries of an
accepted catalog are no exception: its names are those of the two tables, and each entry follows the
rule of its own table. -/
theorem setter_differs_iff_overridden :
    (∀ (options : Options) (descriptor : Descriptor), options.build = .ok descriptor →
      options.DecidesSetter descriptor) ∧
    (∀ (primaryType : Text) (descriptor : Descriptor),
      (Options.ofPrimaryType primaryType).build = .ok descriptor → descriptor.SerializedAsIs) ∧
    (∀ (enumName scopedName primaryDefault : Text) (descriptor : Descriptor),
      (Options.ofEnumeration enumName scopedName primaryDefault).build = .ok descriptor →
        descriptor.SerializedAsIs) ∧
    ∀ (source : Source) (catalog : Catalog), source.read.2 = .ok catalog →
      ∃ declarations, source.declarations = .ok declarations ∧
        catalog.names = declarations.scalars.names ++ declarations.enums.names ∧
        (∀ key options, (key, options) ∈ declarations.scalars.entries →
          ∃ descriptor, catalog.get? key = some descriptor ∧ options.DecidesSetter descriptor) ∧
        ∀ key enumeration, (key, enumeration) ∈ declarations.enums.entries →
          ∃ descriptor, catalog.get? key = some descriptor ∧ descriptor.SerializedAsIs ∧
            Text.HasContent descriptor.primaryType := by
  refine ⟨fun options descriptor => Options.decidesSetter_of_build,
    fun primaryType descriptor => Options.serializedAsIs_of_build rfl,
    fun enumName scopedName primaryDefault descriptor => Options.serializedAsIs_of_build rfl,
    fun source catalog read => ?_⟩
  obtain ⟨declarations, declared⟩ := exists_declarations_of_read read
  have adds := adds_of_read declared read
  obtain ⟨scalars, enums⟩ := (declarations.forall_mem_entries_iff _).mp (get?_of_adds adds)
  refine ⟨declarations, declared, ?_, fun key options member => ?_,
    fun key enumeration member => ?_⟩
  · rw [← declarations.map_name_entries]
    exact map_fst_of_adds adds
  · obtain ⟨descriptor, built, found⟩ := scalars key options member
    exact ⟨descriptor, found, Options.decidesSetter_of_build built⟩
  · obtain ⟨descriptor, built, found⟩ := enums key enumeration member
    exact ⟨descriptor, found, Options.serializedAsIs_of_build rfl built,
      (Options.decidesSetter_of_build built).named⟩

/-- The setter is taken from a type that is serialized as it is, and given to one that is not. -/
theorem setter_differs_iff_overridden_both :
    let without : Options :=
      { primaryType := some ['T'], serializedType := some ['T'], hasSerializerSetter := some false }
    let source : Source :=
      ⟨"[scalars.a]\nprimary_type='x'\nserialized_type='y'\nhas_serializer_setter=true\n".toList ++
        "[enums.b]\ndefault=''".toList, []⟩
    (without.build = .ok (without.resolved ['T']) ∧
      without.DecidesSetter (without.resolved ['T'])) ∧
    ∃ catalog, source.read.2 = .ok catalog ∧
      ∃ declarations, source.declarations = .ok declarations ∧
        catalog.names = declarations.scalars.names ++ declarations.enums.names ∧
        (∀ key options, (key, options) ∈ declarations.scalars.entries →
          ∃ descriptor, catalog.get? key = some descriptor ∧ options.DecidesSetter descriptor) ∧
        ∀ key enumeration, (key, enumeration) ∈ declarations.enums.entries →
          ∃ descriptor, catalog.get? key = some descriptor ∧ descriptor.SerializedAsIs ∧
            Text.HasContent descriptor.primaryType := by
  intro without source
  obtain ⟨decides, _, _, follows⟩ := setter_differs_iff_overridden
  have built : without.build = .ok (without.resolved ['T']) := rfl
  have accepted : ∃ catalog, source.read.2 = .ok catalog := ⟨_, by with_unfolding_all rfl⟩
  obtain ⟨catalog, read⟩ := accepted
  exact ⟨⟨built, decides _ _ built⟩, catalog, read, follows source catalog read⟩

end Scaffold.Catalog
