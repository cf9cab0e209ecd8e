/-
This file proves that a catalog is assembled exactly when nothing is wrong with what
is declared, and that it then holds what is declared and nothing else: the names in
the order of the declarations, and under each name what its own entry stands for.
-/

import Scaffold.Proofs.FirstFault

namespace Scaffold.Catalog

open Scalar (Descriptor Options)

namespace Declarations

/-- All keys are identifiers, no key is in both tables, every scalar type has a primary type, and no
enumeration has a blank name of its own. -/
structure Sound (declarations : Declarations) : Prop where
  scalarKeys : ∀ key ∈ declarations.scalars.names, Identifier key
  enumKeys : ∀ key ∈ declarations.enums.names, Identifier key
  apart : ∀ key ∈ declarations.enums.names, key ∉ declarations.scalars.names
  primaryTypes : ∀ key options, (key, options) ∈ declarations.scalars.entries →
    ∃ primaryType, options.primaryType = some primaryType ∧ Text.HasContent primaryType
  enumNames : ∀ key enumeration, (key, enumeration) ∈ declarations.enums.entries →
    ∀ name, enumeration.name = some name → Text.HasContent name

/-- The catalog holds what is declared: the scalar types and behind them the enumerations. An
enumeration is called by its key if it has no name of its own, and its scope stands in front of that
name where it has one that is not empty. -/
structure Assembled (declarations : Declarations) (catalog : Catalog) : Prop where
  names : catalog.names = declarations.scalars.names ++ declarations.enums.names
  distinct : catalog.names.Nodup
  size : catalog.size = declarations.scalars.size + declarations.enums.size
  get : ∀ name, (catalog.get? name).isSome = true ↔ name ∈ catalog.names
  contains : ∀ name, catalog.contains name = true ↔ name ∈ catalog.names
  scalars : ∀ key options, (key, options) ∈ declarations.scalars.entries →
    ∃ descriptor, options.build = .ok descriptor ∧ catalog.get? key = some descriptor
  plainEnums : ∀ key enumeration, (key, enumeration) ∈ declarations.enums.entries →
    enumeration.scope = none ∨ enumeration.scope = some [] →
    catalog.get? key = some (.ofEnumeration (enumeration.name.getD key)
      (enumeration.name.getD key) enumeration.default)
  scopedEnums : ∀ key enumeration, (key, enumeration) ∈ declarations.enums.entries →
    ∀ scope, enumeration.scope = some scope → scope ≠ [] →
    catalog.get? key = some (.ofEnumeration (enumeration.name.getD key)
      (scope ++ declarations.separator.getD "::".toList ++ enumeration.name.getD key)
      enumeration.default)

/-! ### Entries of either table -/

theorem forall_mem_entries_iff (declarations : Declarations) (claim : Entry → Prop) :
    (∀ entry ∈ declarations.entries, claim entry) ↔
      (∀ key options, (key, options) ∈ declarations.scalars.entries →
        claim ⟨.scalars, key, options⟩) ∧
      ∀ key enumeration, (key, enumeration) ∈ declarations.enums.entries →
        claim ⟨.enums, key, enumeration.options declarations.scopeSeparator key⟩ := by
  simp only [entries, List.forall_mem_append, List.forall_mem_map, Prod.forall]

theorem not_repeats_scalar (declarations : Declarations) (key : Text) (options : Options) :
    ¬ declarations.Repeats ⟨.scalars, key, options⟩ := by
  rintro ⟨isEnum, _⟩
  cases isEnum

theorem repeats_enum_iff (declarations : Declarations) (key : Text) (options : Options) :
    declarations.Repeats ⟨.enums, key, options⟩ ↔ key ∈ declarations.scalars.names :=
  ⟨fun repeats => repeats.2, fun member => ⟨rfl, member⟩⟩

/-- The key stands in for a name, and an identifier is not blank. -/
theorem hasContent_nameAt_iff {key : Text} (valid : Identifier key) (enumeration : Enumeration) :
    Text.HasContent (enumeration.nameAt key) ↔
      ∀ name, enumeration.name = some name → Text.HasContent name := by
  rw [Enumeration.nameAt]
  cases enumeration.name with
  | none =>
    refine ⟨fun _ name absent => ?_, fun _ => valid.hasContent⟩
    exact absurd absent.symm (Option.some_ne_none name)
  | some name => simp only [Option.getD_some, Option.some_inj, forall_eq']

theorem hasPrimaryType_options_iff (enumeration : Enumeration) (separator key : Text) :
    (enumeration.options separator key).HasPrimaryType ↔
      Text.HasContent (enumeration.nameAt key) := by
  have primaryType : (enumeration.options separator key).primaryType =
      some (enumeration.nameAt key) := rfl
  rw [Options.HasPrimaryType, primaryType]
  simp only [Option.some_inj, exists_eq_left']

theorem sound_iff (declarations : Declarations) :
    declarations.Sound ↔ ∀ entry ∈ declarations.entries, ¬ declarations.Faulty entry := by
  simp only [forall_mem_entries_iff, not_faulty_iff, not_repeats_scalar, repeats_enum_iff,
    hasPrimaryType_options_iff, not_false_eq_true, true_and]
  constructor
  · intro sound
    refine ⟨fun key options member => ?_, fun key enumeration member => ?_⟩
    · exact ⟨sound.scalarKeys key (List.mem_map_of_mem member),
        sound.primaryTypes key options member⟩
    · have named := List.mem_map_of_mem (f := Prod.fst) member
      have valid := sound.enumKeys key named
      exact ⟨valid, sound.apart key named,
        (hasContent_nameAt_iff valid enumeration).mpr (sound.enumNames key enumeration member)⟩
  · rintro ⟨scalars, enums⟩
    refine ⟨fun key named => ?_, fun key named => ?_, fun key named => ?_,
      fun key options member => (scalars key options member).2,
      fun key enumeration member => ?_⟩
    · obtain ⟨⟨key, options⟩, member, rfl⟩ := List.mem_map.mp named
      exact (scalars key options member).1
    · obtain ⟨⟨key, enumeration⟩, member, rfl⟩ := List.mem_map.mp named
      exact (enums key enumeration member).1
    · obtain ⟨⟨key, enumeration⟩, member, rfl⟩ := List.mem_map.mp named
      exact (enums key enumeration member).2.1
    · obtain ⟨valid, _, content⟩ := enums key enumeration member
      exact (hasContent_nameAt_iff valid enumeration).mp content

end Declarations

/-! ### What the catalog holds -/

theorem exists_mem_of_adds {entries : List Entry} {added : List (Text × Descriptor)}
    (adds : List.Forall₂ Entry.Adds entries added) {entry : Entry} (member : entry ∈ entries) :
    ∃ pair ∈ added, entry.Adds pair := by
  induction adds with
  | nil => exact absurd member List.not_mem_nil
  | cons first _ inductionHypothesis =>
    rcases List.mem_cons.mp member with rfl | later
    · exact ⟨_, List.mem_cons_self, first⟩
    · obtain ⟨pair, inAdded, adds⟩ := inductionHypothesis later
      exact ⟨pair, List.mem_cons_of_mem _ inAdded, adds⟩

theorem get?_of_adds {entries : List Entry} {catalog : Catalog}
    (adds : List.Forall₂ Entry.Adds entries catalog.entries) (entry : Entry)
    (member : entry ∈ entries) :
    ∃ descriptor, entry.options.build = .ok descriptor ∧
      catalog.get? entry.name = some descriptor := by
  obtain ⟨⟨name, descriptor⟩, inCatalog, rfl, built⟩ := exists_mem_of_adds adds member
  exact ⟨descriptor, built, (catalog.get?_eq_some_iff entry.name descriptor).mpr inCatalog⟩

theorem assembled_of_adds {declarations : Declarations} {catalog : Catalog}
    (sound : declarations.Sound)
    (adds : List.Forall₂ Entry.Adds declarations.entries catalog.entries) :
    declarations.Assembled catalog := by
  have names : catalog.names = declarations.scalars.names ++ declarations.enums.names := by
    rw [← declarations.map_name_entries]
    exact map_fst_of_adds adds
  obtain ⟨scalars, enums⟩ :=
    (declarations.forall_mem_entries_iff _).mp (get?_of_adds adds)
  have enum (key : Text) (enumeration : Enumeration)
      (member : (key, enumeration) ∈ declarations.enums.entries) :
      catalog.get? key = some (.ofEnumeration (enumeration.name.getD key)
        (enumeration.scopedNameAt declarations.scopeSeparator key) enumeration.default) := by
    have valid := sound.enumKeys key (List.mem_map_of_mem member)
    have content := (Declarations.hasContent_nameAt_iff valid enumeration).mpr
      (sound.enumNames key enumeration member)
    obtain ⟨descriptor, built, found⟩ := enums key enumeration member
    rw [Enumeration.options, Options.build_ofEnumeration content] at built
    rw [found, ← Except.ok.inj built]
    rfl
  refine ⟨names, catalog.distinct, ?_, catalog.isSome_get?_iff, catalog.contains_iff, scalars,
    fun key enumeration member unscoped => ?_, fun key enumeration member scope given full => ?_⟩
  · have lengths := congrArg List.length names
    rw [List.length_append] at lengths
    simpa only [Register.names, Register.size, List.length_map] using lengths
  · rw [enum key enumeration member, Enumeration.scopedNameAt]
    rcases unscoped with scope | scope <;> rw [scope] <;> rfl
  · obtain ⟨first, rest, rfl⟩ := List.exists_cons_of_ne_nil full
    rw [enum key enumeration member, Enumeration.scopedNameAt, given]
    rfl

/-- Declarations are assembled exactly if they are sound, and the catalog then holds what they
declare. -/
theorem assembly_exact (source : Source) (declarations : Declarations)
    (declared : source.declarations = .ok declarations) :
    ((∃ catalog, source.read.2 = .ok catalog) ↔ declarations.Sound) ∧
      ∀ catalog, source.read.2 = .ok catalog → declarations.Assembled catalog := by
  have sound_of_read {catalog : Catalog} (read : source.read.2 = .ok catalog) :
      declarations.Sound := by
    rw [Declarations.sound_iff]
    intro entry member faulty
    obtain ⟨before, first, after, split, sound, bad⟩ := exists_first_faulty ⟨entry, member, faulty⟩
    obtain ⟨error, events, _, _, rejected⟩ := read_of_split declared split sound bad
    rw [rejected] at read
    cases read
  refine ⟨⟨fun ⟨catalog, read⟩ => sound_of_read read, fun sound => ?_⟩, fun catalog read => ?_⟩
  · obtain ⟨catalog, events, _, _, read⟩ :=
      read_of_sound declared (declarations.sound_iff.mp sound)
    exact ⟨catalog, by rw [read]⟩
  · have sound := sound_of_read read
    obtain ⟨same, events, _, adds, readSame⟩ :=
      read_of_sound declared (declarations.sound_iff.mp sound)
    rw [readSame] at read
    rw [← Except.ok.inj read]
    exact assembled_of_adds sound adds

/-- A scalar type and an enumeration in a scope, with a name that is not its key. -/
theorem assembly_exact_scoped :
    let declarations : Declarations :=
      ⟨none, ⟨[(['a'], .ofPrimaryType ['x'])], by decide⟩,
        ⟨[(['b'], ⟨some ['N'], some ['S'], []⟩)], by decide⟩⟩
    let source : Source :=
      ⟨"[scalars.a]\nprimary_type='x'\n[enums.b]\nname='N'\nscope='S'\ndefault=''".toList, []⟩
    source.declarations = .ok declarations ∧ declarations.Sound ∧
      ∃ catalog, source.read.2 = .ok catalog ∧ declarations.Assembled catalog := by
  intro declarations source
  have declared : source.declarations = .ok declarations := by with_unfolding_all rfl
  have sound : declarations.Sound := by
    refine ⟨by decide, by decide, by decide, fun key options member => ?_,
      fun key enumeration member name given => ?_⟩
    · obtain ⟨rfl, rfl⟩ := Prod.mk.inj (List.mem_singleton.mp member)
      exact ⟨['x'], rfl, by decide⟩
    · obtain ⟨rfl, rfl⟩ := Prod.mk.inj (List.mem_singleton.mp member)
      rw [← Option.some_inj.mp given]
      decide
  obtain ⟨assembles, holds⟩ := assembly_exact source declarations declared
  obtain ⟨catalog, read⟩ := assembles.mpr sound
  exact ⟨declared, sound, catalog, read, holds catalog read⟩

end Scaffold.Catalog
