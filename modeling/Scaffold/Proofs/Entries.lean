/-
This file tells what is wrong with an entry of a catalog from the declarations
alone, without the catalog that has been assembled so far. The two agree because
the names of one table are distinct: an entry meets its own name in the catalog
exactly if it is an enumeration whose key is also a key of the other table, and
then it does so wherever it stands, as all of that table comes first.
-/

import Scaffold.Catalog.Reading
import Scaffold.Proofs.Descriptors

namespace Scaffold.Catalog

/-! ### Identifiers -/

/-- A letter of the Latin alphabet without marks, in either case, or an underscore. -/
def IsLetter (c : Char) : Prop :=
  ('A' ≤ c ∧ c ≤ 'Z') ∨ ('a' ≤ c ∧ c ≤ 'z') ∨ c = '_'

/-- A letter, with letters and digits behind it. -/
def Identifier : Text → Prop
  | [] => False
  | first :: rest => IsLetter first ∧ ∀ c ∈ rest, IsLetter c ∨ ('0' ≤ c ∧ c ≤ '9')

theorem isAlpha_iff (c : Char) :
    c.isAlpha = true ↔ ('A' ≤ c ∧ c ≤ 'Z') ∨ ('a' ≤ c ∧ c ≤ 'z') := by
  have upper : c.isUpper = true ↔ 'A' ≤ c ∧ c ≤ 'Z' := decide_eq_true_iff
  have lower : c.isLower = true ↔ 'a' ≤ c ∧ c ≤ 'z' :=
    Bool.and_eq_true_iff.trans (and_congr decide_eq_true_iff decide_eq_true_iff)
  exact Bool.or_eq_true_iff.trans (or_congr upper lower)

theorem isNameStart_iff (c : Char) : isNameStart c = true ↔ IsLetter c := by
  rw [isNameStart, decide_eq_true_iff, isAlpha_iff, or_assoc, IsLetter]

theorem isNameChar_iff (c : Char) :
    isNameChar c = true ↔ IsLetter c ∨ ('0' ≤ c ∧ c ≤ '9') := by
  have digit : c.isDigit = true ↔ '0' ≤ c ∧ c ≤ '9' :=
    Bool.and_eq_true_iff.trans (and_congr decide_eq_true_iff decide_eq_true_iff)
  have alphanum : c.isAlphanum = true ↔ c.isAlpha = true ∨ c.isDigit = true :=
    Bool.or_eq_true_iff
  rw [isNameChar, decide_eq_true_iff, alphanum, digit, ← isNameStart_iff, isNameStart,
    decide_eq_true_iff]
  exact or_right_comm

theorem nameFault?_eq_none_iff (name : Text) : nameFault? name = none ↔ Identifier name := by
  cases name with
  | nil => exact ⟨fun equal => Option.some_ne_none _ equal |>.elim, False.elim⟩
  | cons first rest =>
    have restValid : rest.all isNameChar = true ↔ ∀ c ∈ rest, IsLetter c ∨ ('0' ≤ c ∧ c ≤ '9') := by
      simp only [List.all_eq_true, isNameChar_iff]
    rw [Identifier, ← isNameStart_iff, ← restValid, nameFault?]
    cases isNameStart first <;> cases rest.all isNameChar <;> simp

instance (name : Text) : Decidable (Identifier name) :=
  decidable_of_iff _ (nameFault?_eq_none_iff name)

theorem IsLetter.isBlank_eq_false {c : Char} (letter : IsLetter c) : Text.isBlank c = false := by
  simp only [IsLetter, Char.le_def, UInt32.le_iff_toNat_le] at letter
  simp only [Text.isBlank, inRanges, Text.blankRanges, List.any_cons, List.any_nil,
    Bool.or_eq_false_iff, Bool.and_eq_false_iff, decide_eq_false_iff_not, and_true]
  rcases letter with upper | lower | rfl
  · have bounds : 65 ≤ c.toNat ∧ c.toNat ≤ 90 := upper
    omega
  · have bounds : 97 ≤ c.toNat ∧ c.toNat ≤ 122 := lower
    omega
  · decide

theorem Identifier.hasContent {name : Text} (valid : Identifier name) : Text.HasContent name := by
  cases name with
  | nil => exact valid.elim
  | cons first rest => exact ⟨first, List.mem_cons_self, valid.1.isBlank_eq_false⟩

/-! ### Keys of both tables -/

/-- The entry is an enumeration whose key is a key of the other table too. -/
def Declarations.Repeats (declarations : Declarations) (entry : Entry) : Prop :=
  entry.table = .enums ∧ entry.name ∈ declarations.scalars.names

theorem Declarations.map_name_entries (declarations : Declarations) :
    declarations.entries.map Entry.name =
      declarations.scalars.names ++ declarations.enums.names := by
  rw [entries, List.map_append, List.map_map, List.map_map]
  rfl

/-- The scalar types come first, and both tables keep the order of the document. -/
theorem Declarations.map_key_entries (declarations : Declarations) :
    declarations.entries.map (fun entry => (entry.table, entry.name)) =
      declarations.scalars.names.map (Table.scalars, ·) ++
        declarations.enums.names.map (Table.enums, ·) := by
  rw [entries, List.map_append, List.map_map, List.map_map, Register.names, Register.names,
    List.map_map, List.map_map]
  rfl

/-- A split of two lists put together is a split of the first or of the second. -/
theorem exists_split_of_append {front back before after : List Entry} {entry : Entry}
    (split : front ++ back = before ++ entry :: after) :
    (∃ later, front = before ++ entry :: later) ∨
      ∃ more, before = front ++ more ∧ back = more ++ entry :: after := by
  rcases List.append_eq_append_iff.mp split with ⟨more, inBefore, behind⟩ | ⟨more, inFront, behind⟩
  · exact Or.inr ⟨more, inBefore, behind⟩
  · cases more with
    | nil => exact Or.inr ⟨[], by rw [inFront, List.append_nil, List.append_nil], behind.symm⟩
    | cons first later =>
      obtain ⟨rfl, _⟩ := List.cons_eq_cons.mp behind
      exact Or.inl ⟨later, inFront⟩

/-- The entries of one table have distinct names. -/
theorem table_split {Value : Type} (register : Register Value) {table : Table}
    {make : Text × Value → Entry} {before after : List Entry} {entry : Entry}
    (split : register.entries.map make = before ++ entry :: after)
    (named : ∀ pair, (make pair).name = pair.1) (placed : ∀ pair, (make pair).table = table) :
    entry.table = table ∧ entry.name ∉ before.map Entry.name := by
  constructor
  · have member : entry ∈ register.entries.map make := by
      rw [split]
      exact List.mem_append_right before List.mem_cons_self
    obtain ⟨pair, _, rfl⟩ := List.mem_map.mp member
    exact placed pair
  · have names : register.entries.map Prod.fst =
        before.map Entry.name ++ entry.name :: after.map Entry.name := by
      rw [← List.map_cons, ← List.map_append, ← split, List.map_map]
      exact List.map_congr_left fun pair _ => (named pair).symm
    have distinct := register.distinct
    rw [names, List.nodup_append] at distinct
    exact fun met => distinct.2.2 entry.name met entry.name List.mem_cons_self rfl

/-- An entry has the name of one in front of it exactly if its key is a key of both tables. -/
theorem Declarations.mem_names_before_iff {declarations : Declarations}
    {before after : List Entry} {entry : Entry}
    (split : declarations.entries = before ++ entry :: after) :
    entry.name ∈ before.map Entry.name ↔ declarations.Repeats entry := by
  rcases exists_split_of_append split with ⟨later, inScalars⟩ | ⟨more, scalarsFirst, inEnums⟩
  · obtain ⟨isScalar, fresh⟩ :=
      table_split declarations.scalars inScalars (fun _ => rfl) fun _ => rfl
    refine ⟨fun met => absurd met fresh, fun repeats => ?_⟩
    exact absurd (isScalar.symm.trans repeats.1) (by decide)
  · obtain ⟨isEnum, fresh⟩ := table_split declarations.enums inEnums (fun _ => rfl) fun _ => rfl
    have names : before.map Entry.name =
        declarations.scalars.names ++ more.map Entry.name := by
      rw [scalarsFirst, List.map_append, List.map_map]
      rfl
    rw [names, List.mem_append]
    exact ⟨fun met => ⟨isEnum, met.resolve_right fresh⟩, fun repeats => Or.inl repeats.2⟩

/-! ### Faults -/

/-- Something is wrong with the entry: its name is no identifier, or its key is a key of both tables,
or it has no primary type. -/
def Declarations.Faulty (declarations : Declarations) (entry : Entry) : Prop :=
  ¬ Identifier entry.name ∨ declarations.Repeats entry ∨ ¬ entry.options.HasPrimaryType

theorem Declarations.not_faulty_iff (declarations : Declarations) (entry : Entry) :
    ¬ declarations.Faulty entry ↔
      Identifier entry.name ∧ ¬ declarations.Repeats entry ∧ entry.options.HasPrimaryType := by
  rw [Faulty, not_or, not_or, Classical.not_not, Classical.not_not]

/-- The error for which the entry is rejected. The name comes first and the primary type last. -/
inductive Source.Rejects (source : Source) (declarations : Declarations) (entry : Entry) :
    Error → Prop
  | invalidName {fault : NameFault} (invalid : ¬ Identifier entry.name)
      (found : nameFault? entry.name = some fault) :
      source.Rejects declarations entry (.invalidName entry.name fault.message
        (source.locate? entry.table entry.name))
  | duplicateScalar (valid : Identifier entry.name) (repeated : declarations.Repeats entry) :
      source.Rejects declarations entry (.duplicateScalar entry.name
        (source.locate? .scalars entry.name) (source.locate? .enums entry.name))
  | missingPrimaryType (valid : Identifier entry.name) (single : ¬ declarations.Repeats entry)
      (unnamed : ¬ entry.options.HasPrimaryType) :
      source.Rejects declarations entry (.missingPrimaryType entry.name
        (source.locate? entry.table entry.name) .missingPrimaryType)

section Resolving

variable {declarations : Declarations} {entry : Entry} {catalog : Catalog}
variable (met : catalog.contains entry.name = true ↔ declarations.Repeats entry)
include met

/-- An entry without fault resolves to what its options build. -/
theorem Entry.resolve_of_not_faulty (sound : ¬ declarations.Faulty entry) :
    ∃ descriptor, entry.options.build = .ok descriptor ∧
      entry.resolve catalog = .ok descriptor := by
  obtain ⟨valid, single, named⟩ := (declarations.not_faulty_iff entry).mp sound
  obtain ⟨descriptor, built⟩ := entry.options.exists_build_iff.mpr named
  refine ⟨descriptor, built, ?_⟩
  rw [resolve, (nameFault?_eq_none_iff entry.name).mpr valid]
  show (if catalog.contains entry.name = true then _ else _) = _
  rw [if_neg (mt met.mp single), built]
  rfl

/-- A faulty entry does not resolve, and is rejected for the first thing that is wrong with it. -/
theorem Source.rejects_of_faulty (source : Source) (faulty : declarations.Faulty entry) :
    ∃ fault, entry.resolve catalog = .error fault ∧
      source.Rejects declarations entry (source.entryError entry fault) := by
  cases found : nameFault? entry.name with
  | some fault =>
    have invalid : ¬ Identifier entry.name := by
      rw [← nameFault?_eq_none_iff, found]
      exact Option.some_ne_none fault
    exact ⟨.invalidName fault, by rw [Entry.resolve, found], .invalidName invalid found⟩
  | none =>
    have valid := (nameFault?_eq_none_iff entry.name).mp found
    rw [Entry.resolve, found]
    by_cases repeated : declarations.Repeats entry
    · exact ⟨.duplicate, if_pos (met.mpr repeated), .duplicateScalar valid repeated⟩
    · have unnamed := (faulty.resolve_left (not_not_intro valid)).resolve_left repeated
      refine ⟨.unbuildable .missingPrimaryType, ?_, .missingPrimaryType valid repeated unnamed⟩
      show (if catalog.contains entry.name = true then _ else _) = _
      rw [if_neg (mt met.mp repeated), Scalar.Options.build_of_not_hasPrimaryType unnamed]
      rfl

end Resolving

end Scaffold.Catalog
