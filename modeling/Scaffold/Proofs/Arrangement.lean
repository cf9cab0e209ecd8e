/-
This file proves that the order of declarations does not matter. Whether they are
accepted, and what the catalog then holds, is settled by the names that are declared
and by the options under each of them. Where an entry stands plays no part in it, and
neither does the table that it stands in.
-/

import Mathlib.Data.List.Nodup
import Mathlib.Data.List.Perm.Basic
import Scaffold.Proofs.Exactness

namespace Scaffold

open Scalar (Options)

/-! ### Registers in any order -/

namespace Register

variable {Value : Type}

theorem nodup_entries (register : Register Value) : register.entries.Nodup :=
  .of_map Prod.fst register.distinct

/-- Registers have the same entries exactly if they give the same answer for every name. -/
theorem perm_iff (first second : Register Value) :
    first.entries.Perm second.entries ↔ ∀ name, first.get? name = second.get? name := by
  rw [List.perm_ext_iff_of_nodup first.nodup_entries second.nodup_entries]
  constructor
  · intro same name
    refine Option.ext fun value => ?_
    rw [get?_eq_some_iff, get?_eq_some_iff, same]
  · rintro same ⟨name, value⟩
    rw [← get?_eq_some_iff, ← get?_eq_some_iff, same]

/-- Of two registers of one size, one agrees with the other if it only holds what the other holds:
names are distinct, so nothing is left over. -/
theorem agrees_iff_perm [DecidableEq Value] (first second : Register Value) :
    first.agrees second = true ↔ first.entries.Perm second.entries := by
  rw [agrees, decide_eq_true_iff, List.all_eq_true]
  simp only [decide_eq_true_eq, get?_eq_some_iff]
  constructor
  · rintro ⟨size, held⟩
    exact (List.subperm_of_subset first.nodup_entries held).perm_of_length_le
      (Nat.le_of_eq size.symm)
  · intro perm
    exact ⟨perm.length_eq, fun _ member => perm.subset member⟩

end Register

namespace Catalog

/-! ### What counts of declarations -/

/-- The names that are declared, each with the options of the scalar type that it stands for. -/
def Declarations.listing (declarations : Declarations) : List (Text × Options) :=
  declarations.entries.map fun entry => (entry.name, entry.options)

theorem Declarations.listing_eq (declarations : Declarations) :
    declarations.listing = declarations.scalars.entries ++
      declarations.enums.entries.map fun (key, enumeration) =>
        (key, enumeration.options declarations.scopeSeparator key) := by
  rw [listing, entries, List.map_append, List.map_map, List.map_map]
  exact congrArg (· ++ _) (List.map_id _)

theorem Declarations.map_fst_listing (declarations : Declarations) :
    declarations.listing.map Prod.fst =
      declarations.scalars.names ++ declarations.enums.names := by
  rw [← map_name_entries, listing, List.map_map]
  rfl

/-- No key is in both tables exactly if no name is declared twice. -/
theorem Declarations.nodup_names_iff (declarations : Declarations) :
    (declarations.listing.map Prod.fst).Nodup ↔
      ∀ entry ∈ declarations.entries, ¬ declarations.Repeats entry := by
  have scalars : declarations.scalars.names.Nodup := declarations.scalars.distinct
  have enums : declarations.enums.names.Nodup := declarations.enums.distinct
  rw [map_fst_listing, List.nodup_append', and_iff_right scalars, and_iff_right enums,
    forall_mem_entries_iff]
  simp only [not_repeats_scalar, repeats_enum_iff, not_false_eq_true, implies_true, true_and]
  constructor
  · intro apart key enumeration member inScalars
    exact apart inScalars (List.mem_map_of_mem member)
  · rintro apart key inScalars inEnums
    obtain ⟨⟨key, enumeration⟩, member, rfl⟩ := List.mem_map.mp inEnums
    exact apart key enumeration member inScalars

theorem Declarations.sound_iff_listing (declarations : Declarations) :
    declarations.Sound ↔ (declarations.listing.map Prod.fst).Nodup ∧
      ∀ pair ∈ declarations.listing, Identifier pair.1 ∧ pair.2.HasPrimaryType := by
  rw [sound_iff, nodup_names_iff, listing, List.forall_mem_map]
  simp only [not_faulty_iff]
  constructor
  · intro sound
    exact ⟨fun entry member => (sound entry member).2.1, fun entry member =>
      ⟨(sound entry member).1, (sound entry member).2.2⟩⟩
  · rintro ⟨single, valid⟩ entry member
    exact ⟨(valid entry member).1, single entry member, (valid entry member).2⟩

/-- Declarations that list the same in another order are sound together. -/
theorem Declarations.sound_congr {first second : Declarations}
    (perm : first.listing.Perm second.listing) : first.Sound ↔ second.Sound := by
  rw [sound_iff_listing, sound_iff_listing, (perm.map Prod.fst).nodup_iff]
  simp only [perm.mem_iff]

/-! ### What counts of catalogs -/

/-- The name stays, and the options become what they build. -/
def Builds (listed : Text × Options) (added : Text × Scalar.Descriptor) : Prop :=
  added.1 = listed.1 ∧ listed.2.build = .ok added.2

/-- Options build at most one descriptor. -/
theorem rightUnique_builds : Relator.RightUnique Builds := by
  rintro listed ⟨name, descriptor⟩ ⟨other, same⟩ ⟨named, built⟩ ⟨namedOther, builtSame⟩
  rw [built] at builtSame
  exact Prod.ext (named.trans namedOther.symm) (Except.ok.inj builtSame)

theorem exists_declarations_of_read {source : Source} {catalog : Catalog}
    (read : source.read.2 = .ok catalog) :
    ∃ declarations, source.declarations = .ok declarations := by
  rw [Source.read] at read
  cases declared : source.declarations with
  | error error =>
    rw [declared] at read
    cases read
  | ok declarations => exact ⟨declarations, rfl⟩

section

variable {source : Source} {declarations : Declarations}
variable (declared : source.declarations = .ok declarations)
include declared

/-- What is accepted is sound, and it is what the catalog is built from. -/
theorem builds_of_read {catalog : Catalog} (read : source.read.2 = .ok catalog) :
    declarations.Sound ∧ List.Forall₂ Builds declarations.listing catalog.entries := by
  have sound : ∀ entry ∈ declarations.entries, ¬ declarations.Faulty entry := by
    intro entry member faulty
    obtain ⟨before, first, after, split, sound, bad⟩ := exists_first_faulty ⟨entry, member, faulty⟩
    obtain ⟨error, events, _, _, rejected⟩ := read_of_split declared split sound bad
    rw [rejected] at read
    cases read
  obtain ⟨same, events, _, adds, readSame⟩ := read_of_sound declared sound
  rw [readSame] at read
  refine ⟨declarations.sound_iff.mpr sound, ?_⟩
  rw [← Except.ok.inj read]
  exact List.forall₂_map_left_iff.mpr adds

theorem exists_read_iff : (∃ catalog, source.read.2 = .ok catalog) ↔ declarations.Sound := by
  constructor
  · rintro ⟨catalog, read⟩
    exact (builds_of_read declared read).1
  · intro sound
    obtain ⟨catalog, events, _, _, read⟩ :=
      read_of_sound declared (declarations.sound_iff.mp sound)
    exact ⟨catalog, by rw [read]⟩

end

section

variable {first second : Source} {declarations rearranged : Declarations}
variable (declared : first.declarations = .ok declarations)
variable (redeclared : second.declarations = .ok rearranged)
variable (perm : declarations.listing.Perm rearranged.listing)
include declared redeclared perm

/-- Declarations that list the same in another order are accepted together. -/
theorem exists_read_congr :
    (∃ catalog, first.read.2 = .ok catalog) ↔ ∃ catalog, second.read.2 = .ok catalog := by
  rw [exists_read_iff declared, exists_read_iff redeclared, Declarations.sound_congr perm]

/-- The catalogs of declarations that list the same in another order agree. -/
theorem agrees_of_read {catalog same : Catalog} (read : first.read.2 = .ok catalog)
    (readSame : second.read.2 = .ok same) : catalog.agrees same = true := by
  rw [Register.agrees_iff_perm]
  exact List.rel_perm_imp rightUnique_builds (builds_of_read declared read).2
    (builds_of_read redeclared readSame).2 perm

end

/-! ### Any order in each table -/

/-- The same entries in each of the two tables, in any order, and the same separator. -/
structure Declarations.Rearranges (declarations rearranged : Declarations) : Prop where
  separator : rearranged.separator = declarations.separator
  scalars : declarations.scalars.entries.Perm rearranged.scalars.entries
  enums : declarations.enums.entries.Perm rearranged.enums.entries

theorem Declarations.Rearranges.listing {declarations rearranged : Declarations}
    (rearranges : declarations.Rearranges rearranged) :
    declarations.listing.Perm rearranged.listing := by
  rw [listing_eq, listing_eq, scopeSeparator, scopeSeparator, rearranges.separator]
  exact rearranges.scalars.append (rearranges.enums.map _)

/-- Documents that declare the same in another order are accepted together, and their catalogs agree.
Two catalogs agree exactly if they give the same answer for every name. -/
theorem order_irrelevant :
    (∀ (first second : Source) (declarations rearranged : Declarations),
      first.declarations = .ok declarations → second.declarations = .ok rearranged →
      declarations.Rearranges rearranged →
      ((∃ catalog, first.read.2 = .ok catalog) ↔ ∃ catalog, second.read.2 = .ok catalog) ∧
      ∀ catalog same, first.read.2 = .ok catalog → second.read.2 = .ok same →
        catalog.agrees same = true) ∧
    ∀ (first second : Source) (catalog other : Catalog),
      first.read.2 = .ok catalog → second.read.2 = .ok other →
      (catalog.agrees other = true ↔ ∀ name, catalog.get? name = other.get? name) := by
  constructor
  · intro first second declarations rearranged declared redeclared rearranges
    have perm := rearranges.listing
    exact ⟨exists_read_congr declared redeclared perm,
      fun _ _ => agrees_of_read declared redeclared perm⟩
  · intro first second catalog other _ _
    rw [Register.agrees_iff_perm, Register.perm_iff]

/-- A scalar type and two enumerations, with the enumerations declared in front of it and in the
other order. -/
theorem order_irrelevant_swapped :
    let first : Source :=
      ⟨"[scalars.a]\nprimary_type='x'\n[enums.c]\ndefault='1'\n[enums.d]\ndefault='2'".toList, []⟩
    let second : Source :=
      ⟨"[enums.d]\ndefault='2'\n[enums.c]\ndefault='1'\n[scalars.a]\nprimary_type='x'".toList, []⟩
    let declarations : Declarations :=
      ⟨none, ⟨[(['a'], .ofPrimaryType ['x'])], by decide⟩,
        ⟨[(['c'], ⟨none, none, ['1']⟩), (['d'], ⟨none, none, ['2']⟩)], by decide⟩⟩
    let rearranged : Declarations :=
      ⟨none, ⟨[(['a'], .ofPrimaryType ['x'])], by decide⟩,
        ⟨[(['d'], ⟨none, none, ['2']⟩), (['c'], ⟨none, none, ['1']⟩)], by decide⟩⟩
    first.declarations = .ok declarations ∧ second.declarations = .ok rearranged ∧
      declarations.Rearranges rearranged ∧
      ∃ catalog same, first.read.2 = .ok catalog ∧ second.read.2 = .ok same ∧
        catalog.agrees same = true ∧ ∀ name, catalog.get? name = same.get? name := by
  intro first second declarations rearranged
  have declared : first.declarations = .ok declarations := by with_unfolding_all rfl
  have redeclared : second.declarations = .ok rearranged := by with_unfolding_all rfl
  have rearranges : declarations.Rearranges rearranged := ⟨rfl, .refl _, .swap _ _ _⟩
  have accepted : ∃ catalog, first.read.2 = .ok catalog := ⟨_, by with_unfolding_all rfl⟩
  obtain ⟨together, agree⟩ := order_irrelevant.1 first second _ _ declared redeclared rearranges
  obtain ⟨catalog, read⟩ := accepted
  obtain ⟨same, readSame⟩ := together.mp ⟨catalog, read⟩
  have agrees := agree catalog same read readSame
  exact ⟨declared, redeclared, rearranges, catalog, same, read, readSame, agrees,
    (order_irrelevant.2 first second catalog same read readSame).mp agrees⟩

end Catalog

end Scaffold
