/-
This file proves that assembling a catalog stops at the first faulty entry, and that
the log tells of the entries in front of it and of nothing else. What carries the
induction is that the names in the catalog are those of the entries so far: every
entry then finds its own fault, whatever the entries in front of it were.
-/

import Mathlib.Data.List.Forall2
import Scaffold.Proofs.Entries

namespace Scaffold.Catalog

open Scalar (Descriptor)

/-! ### Entries without fault -/

/-- The event tells of the entry, for debugging: a scalar type with its name and the types that its
options resolve to, an enumeration with its name and the scoped one. -/
def Entry.Logs (entry : Entry) (event : Event) : Prop :=
  ∃ descriptor, entry.options.build = .ok descriptor ∧ event.level = .debug ∧
    (entry.table = .scalars →
      event = .registeredScalar entry.name descriptor.primaryType descriptor.serializedType) ∧
    (entry.table = .enums → event = .registeredEnum entry.name descriptor.scopedPrimaryType)

/-- The name of the entry with what its options build. -/
def Entry.Adds (entry : Entry) (added : Text × Descriptor) : Prop :=
  added.1 = entry.name ∧ entry.options.build = .ok added.2

theorem Entry.logs_registered {entry : Entry} {descriptor : Descriptor}
    (built : entry.options.build = .ok descriptor) :
    entry.Logs (.registered entry descriptor) := by
  refine ⟨descriptor, built, ?_⟩
  rw [Event.registered]
  cases entry.table with
  | scalars => exact ⟨rfl, fun _ => rfl, nofun⟩
  | enums => exact ⟨rfl, nofun, fun _ => rfl⟩

theorem map_fst_of_adds {entries : List Entry} {added : List (Text × Descriptor)}
    (adds : List.Forall₂ Entry.Adds entries added) :
    added.map Prod.fst = entries.map Entry.name := by
  induction adds with
  | nil => rfl
  | cons added _ inductionHypothesis =>
    rw [List.map_cons, List.map_cons, added.1, inductionHypothesis]

theorem assemble_cons {entry : Entry} {catalog : Catalog} {descriptor : Descriptor}
    (resolved : entry.resolve catalog = .ok descriptor) (rest : List Entry) :
    assemble catalog (entry :: rest) =
      (.registered entry descriptor :: (assemble (catalog.insert entry.name descriptor) rest).1,
        (assemble (catalog.insert entry.name descriptor) rest).2) := by
  rw [assemble, resolved]

theorem assemble_of_error {entry : Entry} {catalog : Catalog} {fault : EntryFault}
    (rejected : entry.resolve catalog = .error fault) (rest : List Entry) :
    assemble catalog (entry :: rest) = ([], .error (entry, fault)) := by
  rw [assemble, rejected]

section

variable {declarations : Declarations}

/-- The catalog knows the name of the next entry exactly if the declarations have its key twice. -/
theorem contains_iff_repeats {before after : List Entry} {entry : Entry} {catalog : Catalog}
    (split : declarations.entries = before ++ entry :: after)
    (names : catalog.names = before.map Entry.name) :
    catalog.contains entry.name = true ↔ declarations.Repeats entry := by
  rw [Register.contains_iff, names, Declarations.mem_names_before_iff split]

/-- Entries without fault go into the catalog one behind the other, and the log keeps step. -/
theorem assemble_append {before rest : List Entry} {catalog : Catalog} (next : List Entry)
    (split : declarations.entries = before ++ (next ++ rest))
    (names : catalog.names = before.map Entry.name)
    (sound : ∀ entry ∈ next, ¬ declarations.Faulty entry) :
    ∃ (events : List Event) (added : List (Text × Descriptor)) (grown : Catalog),
      List.Forall₂ Entry.Logs next events ∧ List.Forall₂ Entry.Adds next added ∧
      grown.entries = catalog.entries ++ added ∧
      assemble catalog (next ++ rest) =
        (events ++ (assemble grown rest).1, (assemble grown rest).2) := by
  induction next generalizing before catalog with
  | nil => exact ⟨[], [], catalog, .nil, .nil, (List.append_nil _).symm, rfl⟩
  | cons entry later inductionHypothesis =>
    obtain ⟨soundEntry, soundLater⟩ := List.forall_mem_cons.mp sound
    have met := contains_iff_repeats split names
    obtain ⟨descriptor, built, resolved⟩ := Entry.resolve_of_not_faulty met soundEntry
    have fresh : entry.name ∉ catalog.names := by
      rw [← Register.contains_iff, met]
      exact fun repeated => soundEntry (Or.inr (Or.inl repeated))
    have inserted : (catalog.insert entry.name descriptor).entries =
        catalog.entries ++ [(entry.name, descriptor)] :=
      Register.insertEntry_of_notMem fresh descriptor
    have grownNames : (catalog.insert entry.name descriptor).names =
        (before ++ [entry]).map Entry.name := by
      rw [Register.names, inserted, List.map_append, List.map_append, ← names]
      rfl
    obtain ⟨events, added, grown, logs, adds, extended, assembled⟩ :=
      inductionHypothesis (by rw [split, List.append_assoc]; rfl) grownNames soundLater
    refine ⟨.registered entry descriptor :: events, (entry.name, descriptor) :: added, grown,
      .cons (Entry.logs_registered built) logs, .cons ⟨rfl, built⟩ adds, ?_, ?_⟩
    · rw [extended, inserted, List.append_assoc]
      rfl
    · rw [List.cons_append, assemble_cons resolved, assembled]
      rfl

/-- The catalog behind entries without fault at the front of the declarations holds just these. -/
theorem assemble_front {front rest : List Entry} (split : declarations.entries = front ++ rest)
    (sound : ∀ entry ∈ front, ¬ declarations.Faulty entry) :
    ∃ (events : List Event) (catalog : Catalog), List.Forall₂ Entry.Logs front events ∧
      List.Forall₂ Entry.Adds front catalog.entries ∧
      assemble .empty declarations.entries =
        (events ++ (assemble catalog rest).1, (assemble catalog rest).2) := by
  have start : (Register.empty : Catalog).names = ([] : List Entry).map Entry.name := rfl
  obtain ⟨events, added, catalog, logs, adds, extended, assembled⟩ :=
    assemble_append front split start sound
  have entries : catalog.entries = added := extended
  rw [← entries] at adds
  exact ⟨events, catalog, logs, adds, by rw [split, assembled]⟩

/-! ### The first fault -/

/-- Declarations with a faulty entry have a first one. -/
theorem exists_first_faulty {entries : List Entry}
    (faulty : ∃ entry ∈ entries, declarations.Faulty entry) :
    ∃ before entry after, entries = before ++ entry :: after ∧
      (∀ earlier ∈ before, ¬ declarations.Faulty earlier) ∧ declarations.Faulty entry := by
  classical
  obtain ⟨member, inEntries, bad⟩ := faulty
  have found : (entries.find? fun entry => decide (declarations.Faulty entry)).isSome = true :=
    List.find?_isSome.mpr ⟨member, inEntries, decide_eq_true bad⟩
  obtain ⟨entry, first⟩ := Option.isSome_iff_exists.mp found
  obtain ⟨badEntry, before, after, split, sound⟩ := List.find?_eq_some_iff_append.mp first
  refine ⟨before, entry, after, split, fun earlier member => ?_, of_decide_eq_true badEntry⟩
  have passed := sound earlier member
  rw [Bool.not_eq_true', decide_eq_false_iff_not] at passed
  exact passed

theorem read_of_declared {source : Source} (declared : source.declarations = .ok declarations) :
    source.read = ((source.assemble declarations).1,
      (source.assemble declarations).2.mapError (⟨source, ·⟩)) := by
  rw [Source.read, declared]

/-- What stands in front of the first faulty entry is logged, and the entry is rejected. -/
theorem read_of_split {source : Source} (declared : source.declarations = .ok declarations)
    {before after : List Entry} {entry : Entry}
    (split : declarations.entries = before ++ entry :: after)
    (sound : ∀ earlier ∈ before, ¬ declarations.Faulty earlier)
    (faulty : declarations.Faulty entry) :
    ∃ error events, source.Rejects declarations entry error ∧
      List.Forall₂ Entry.Logs before events ∧ source.read = (events, .error ⟨source, error⟩) := by
  obtain ⟨events, catalog, logs, adds, assembled⟩ := assemble_front split sound
  obtain ⟨fault, rejected, rejects⟩ :=
    source.rejects_of_faulty (contains_iff_repeats split (map_fst_of_adds adds)) faulty
  refine ⟨_, events, rejects, logs, ?_⟩
  rw [read_of_declared declared, Source.assemble, assembled, assemble_of_error rejected,
    List.append_nil]
  rfl

/-- Without a faulty entry all of them are logged, and they are the catalog. -/
theorem read_of_sound {source : Source} (declared : source.declarations = .ok declarations)
    (sound : ∀ entry ∈ declarations.entries, ¬ declarations.Faulty entry) :
    ∃ (catalog : Catalog) (events : List Event),
      List.Forall₂ Entry.Logs declarations.entries events ∧
      List.Forall₂ Entry.Adds declarations.entries catalog.entries ∧
      source.read = (events ++ [.parsedCatalog source.filename catalog.size], .ok catalog) := by
  obtain ⟨events, catalog, logs, adds, assembled⟩ := assemble_front (List.append_nil _).symm sound
  refine ⟨catalog, events, logs, adds, ?_⟩
  rw [read_of_declared declared, Source.assemble, assembled, assemble, List.append_nil]
  rfl

/-- The entries are the scalar types and then the enumerations, in the order of the document. Reading
fails at the first faulty one, for the first thing that is wrong with it, and the log has one event
for debugging for every entry in front of it. Without a faulty entry the log has one for every entry,
and behind them the one for information that tells the file name and the number of entries. -/
theorem first_fault_wins (source : Source) (declarations : Declarations)
    (declared : source.declarations = .ok declarations) :
    declarations.entries.map (fun entry => (entry.table, entry.name)) =
      declarations.scalars.names.map (Table.scalars, ·) ++
        declarations.enums.names.map (Table.enums, ·) ∧
    ((∃ entry ∈ declarations.entries, declarations.Faulty entry) →
      ∃ before entry after error events,
        declarations.entries = before ++ entry :: after ∧
        (∀ earlier ∈ before, ¬ declarations.Faulty earlier) ∧ declarations.Faulty entry ∧
        source.Rejects declarations entry error ∧ List.Forall₂ Entry.Logs before events ∧
        source.read = (events, .error ⟨source, error⟩)) ∧
    ((∀ entry ∈ declarations.entries, ¬ declarations.Faulty entry) →
      ∃ catalog events, List.Forall₂ Entry.Logs declarations.entries events ∧
        (Event.parsedCatalog source.filename catalog.size).level = .info ∧
        source.read =
          (events ++ [.parsedCatalog source.filename catalog.size], .ok catalog)) := by
  refine ⟨declarations.map_key_entries, ?_, ?_⟩
  · intro someFaulty
    obtain ⟨before, entry, after, split, sound, faulty⟩ := exists_first_faulty someFaulty
    obtain ⟨error, events, rejects, logs, read⟩ := read_of_split declared split sound faulty
    exact ⟨before, entry, after, error, events, split, sound, faulty, rejects, logs, read⟩
  · intro sound
    obtain ⟨catalog, events, logs, _, read⟩ := read_of_sound declared sound
    exact ⟨catalog, events, logs, rfl, read⟩

end

/-- A key of both tables, behind a scalar type that is registered. -/
theorem first_fault_wins_repeated :
    let declarations : Declarations :=
      ⟨none, ⟨[(['a'], .ofPrimaryType ['x'])], by decide⟩, ⟨[(['a'], ⟨none, none, []⟩)], by decide⟩⟩
    let source : Source := ⟨"[scalars.a]\nprimary_type='x'\n[enums.a]\ndefault=''".toList, []⟩
    source.declarations = .ok declarations ∧
      source.read.1 = [.registeredScalar ['a'] ['x'] ['x']] ∧
      ∃ before entry after error events, declarations.entries = before ++ entry :: after ∧
        (∀ earlier ∈ before, ¬ declarations.Faulty earlier) ∧ declarations.Faulty entry ∧
        source.Rejects declarations entry error ∧ List.Forall₂ Entry.Logs before events ∧
        source.read = (events, .error ⟨source, error⟩) := by
  intro declarations source
  have declared : source.declarations = .ok declarations := by with_unfolding_all rfl
  have repeated : declarations.Faulty ⟨.enums, ['a'], .ofEnumeration ['a'] ['a'] []⟩ :=
    Or.inr (Or.inl ⟨rfl, by decide⟩)
  have logged : source.read.1 = [.registeredScalar ['a'] ['x'] ['x']] := by
    rw [read_of_declared declared]
    rfl
  exact ⟨declared, logged,
    (first_fault_wins source declarations declared).2.1 ⟨_, by decide, repeated⟩⟩

end Scaffold.Catalog
