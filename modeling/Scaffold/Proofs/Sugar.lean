/-
This file proves that enumerations are scalar types in other words. An enumeration
can be moved to the other table, with the options spelled out that it stands for.
The declarations then list the same names with the same options as before, and the
order in which they do so does not matter.
-/

import Scaffold.Proofs.Arrangement
import Scaffold.Proofs.Documents

namespace Scaffold.Catalog

open Scalar (Options)

/-- The options of an enumeration, spelled out. -/
def Enumeration.spelledOut (enumeration : Enumeration) (separator key : Text) : Options where
  primaryType := some (enumeration.name.getD key)
  isEnum := some true
  scopedPrimaryType := some <|
    match enumeration.scope with
    | none | some [] => enumeration.name.getD key
    | some scope => scope ++ separator ++ enumeration.name.getD key
  primaryDefault := some enumeration.default

/-- Nothing but the name, the scope and the default goes into the options. -/
theorem Enumeration.options_eq_spelledOut (enumeration : Enumeration) (separator key : Text) :
    enumeration.options separator key = enumeration.spelledOut separator key := by
  obtain ⟨name, scope, default⟩ := enumeration
  rcases scope with _ | _ | _ <;> rfl

/-- The entry of the other table that an enumeration is moved to. -/
def Declarations.spelledOut (declarations : Declarations) (pair : Text × Enumeration) :
    Text × Options :=
  (pair.1, pair.2.spelledOut declarations.scopeSeparator pair.1)

/-- Chosen enumerations have moved to the other table, and all else is as it was. In each table the
entries may stand in any order. -/
structure Declarations.Moves (declarations : Declarations) (chosen : List (Text × Enumeration))
    (moved : Declarations) : Prop where
  separator : moved.separator = declarations.separator
  scalars : moved.scalars.entries.Perm
    (declarations.scalars.entries ++ chosen.map declarations.spelledOut)
  enums : declarations.enums.entries.Perm (chosen ++ moved.enums.entries)

namespace Declarations

variable {declarations moved : Declarations} {chosen : List (Text × Enumeration)}

theorem listing_eq_spelledOut (declarations : Declarations) :
    declarations.listing =
      declarations.scalars.entries ++ declarations.enums.entries.map declarations.spelledOut := by
  rw [listing_eq]
  refine congrArg (_ ++ ·) (List.map_congr_left fun pair _ => ?_)
  exact Prod.ext rfl (pair.2.options_eq_spelledOut declarations.scopeSeparator pair.1)

/-- What is listed stays. -/
theorem Moves.listing (moves : declarations.Moves chosen moved) :
    declarations.listing.Perm moved.listing := by
  have spelled : moved.spelledOut = declarations.spelledOut := by
    funext pair
    rw [spelledOut, spelledOut, scopeSeparator, scopeSeparator, moves.separator]
  rw [listing_eq_spelledOut, listing_eq_spelledOut, spelled]
  calc List.Perm (declarations.scalars.entries ++
          declarations.enums.entries.map declarations.spelledOut)
        (declarations.scalars.entries ++
          (chosen ++ moved.enums.entries).map declarations.spelledOut) :=
        (moves.enums.map _).append_left _
    _ = declarations.scalars.entries ++ chosen.map declarations.spelledOut ++
          moved.enums.entries.map declarations.spelledOut := by
        rw [List.map_append, List.append_assoc]
    List.Perm _ (moved.scalars.entries ++ moved.enums.entries.map declarations.spelledOut) :=
        moves.scalars.symm.append_right _

/-- Where no key is in both tables, any choice of enumerations can move. -/
theorem exists_moves (apart : (declarations.listing.map Prod.fst).Nodup)
    (choice : chosen.Sublist declarations.enums.entries) :
    ∃ moved, declarations.Moves chosen moved := by
  obtain ⟨rest, perm⟩ := choice.exists_perm_append
  have scalars : ((declarations.scalars.entries ++ chosen.map declarations.spelledOut).map
      Prod.fst).Nodup := by
    rw [map_fst_listing] at apart
    rw [List.map_append, List.map_map]
    exact ((choice.map Prod.fst).append_left _).nodup apart
  have enums : (rest.map Prod.fst).Nodup := by
    have distinct := ((perm.map Prod.fst).nodup_iff).mp declarations.enums.distinct
    rw [List.map_append] at distinct
    exact distinct.of_append_right
  exact ⟨⟨declarations.separator, ⟨_, scalars⟩, ⟨rest, enums⟩⟩, ⟨rfl, .refl _, perm⟩⟩

end Declarations

/-- Enumerations of an accepted catalog, be it one of them, all of them or any others, can be declared
as scalar types instead. There is a document that does so, and every such document is accepted with a
catalog that agrees. -/
theorem enumerations_spelled_out (source : Source) (catalog : Catalog)
    (accepted : source.read.2 = .ok catalog) :
    ∃ declarations, source.declarations = .ok declarations ∧
      ∀ chosen, chosen.Sublist declarations.enums.entries →
        (∃ moved, declarations.Moves chosen moved) ∧
        ∀ moved, declarations.Moves chosen moved →
          (∃ document : Source, document.declarations = .ok moved) ∧
          ∀ document : Source, document.declarations = .ok moved →
            ∃ same, document.read.2 = .ok same ∧ catalog.agrees same = true := by
  obtain ⟨declarations, declared⟩ := exists_declarations_of_read accepted
  refine ⟨declarations, declared, fun chosen choice => ⟨?_, fun moved moves => ?_⟩⟩
  · have sound := (builds_of_read declared accepted).1
    exact Declarations.exists_moves (declarations.sound_iff_listing.mp sound).1 choice
  · refine ⟨⟨⟨moved.write, []⟩, declarations_write moved []⟩, fun document redeclared => ?_⟩
    obtain ⟨same, read⟩ :=
      (exists_read_congr declared redeclared moves.listing).mp ⟨catalog, accepted⟩
    exact ⟨same, read, agrees_of_read declared redeclared moves.listing accepted read⟩

/-- An enumeration in a scope has moved in front of a scalar type. -/
theorem enumerations_spelled_out_scoped :
    let source : Source :=
      ⟨"[scalars.a]\nprimary_type='x'\n[enums.b]\nscope='S'\ndefault='1'".toList, []⟩
    let document : Source :=
      ⟨"[scalars.b]\nprimary_type='b'\nis_enum=true\nscoped_primary_type='S::b'\n".toList ++
        "primary_default='1'\n[scalars.a]\nprimary_type='x'".toList, []⟩
    ∃ catalog same, source.read.2 = .ok catalog ∧ document.read.2 = .ok same ∧
      catalog.agrees same = true := by
  intro source document
  let chosen : Text × Enumeration := (['b'], ⟨none, some ['S'], ['1']⟩)
  let declarations : Declarations :=
    ⟨none, ⟨[(['a'], .ofPrimaryType ['x'])], by decide⟩, ⟨[chosen], by decide⟩⟩
  let moved : Declarations :=
    ⟨none, ⟨[declarations.spelledOut chosen, (['a'], .ofPrimaryType ['x'])], by decide⟩, .empty⟩
  have declared : source.declarations = .ok declarations := by with_unfolding_all rfl
  -- Reading goes one call deep for every character of the document.
  have redeclared : document.declarations = .ok moved := by
    set_option maxRecDepth 2000 in
    with_unfolding_all rfl
  have moves : declarations.Moves [chosen] moved := ⟨rfl, .swap _ _ _, .refl _⟩
  have accepted : ∃ catalog, source.read.2 = .ok catalog := ⟨_, by with_unfolding_all rfl⟩
  obtain ⟨catalog, read⟩ := accepted
  obtain ⟨same, declaredSame, spelled⟩ := enumerations_spelled_out source catalog read
  cases declared.symm.trans declaredSame
  obtain ⟨_, accepts⟩ := spelled [chosen] (.refl _)
  obtain ⟨_, agree⟩ := accepts moved moves
  obtain ⟨other, readOther, agrees⟩ := agree document redeclared
  exact ⟨catalog, other, read, readOther, agrees⟩

end Scaffold.Catalog
