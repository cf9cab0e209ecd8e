/-
This file holds registers: values under distinct names, in the order in which the
names came in.
-/

import Scaffold.Text.Lines

namespace Scaffold

/-- Values under distinct names, in the order in which the names came in. -/
structure Register (Value : Type) where
  entries : List (Text × Value)
  distinct : (entries.map Prod.fst).Nodup

namespace Register

variable {Value : Type}

/-- Entries with the value of a name replaced where the name is, or added behind all others. -/
def insertEntry (name : Text) (value : Value) : List (Text × Value) → List (Text × Value)
  | [] => [(name, value)]
  | entry :: rest =>
    if entry.1 = name then (name, value) :: rest else entry :: insertEntry name value rest

theorem mem_names_insertEntry {name other : Text} {value : Value} {entries : List (Text × Value)} :
    other ∈ (insertEntry name value entries).map Prod.fst ↔
      other = name ∨ other ∈ entries.map Prod.fst := by
  induction entries with
  | nil => simp [insertEntry]
  | cons entry rest inductionHypothesis =>
    by_cases same : entry.1 = name
    · simp [insertEntry, same]
    · rw [insertEntry, if_neg same, List.map_cons, List.mem_cons, inductionHypothesis,
        List.map_cons, List.mem_cons]
      exact or_left_comm

theorem nodup_names_insertEntry {name : Text} {value : Value} {entries : List (Text × Value)}
    (distinct : (entries.map Prod.fst).Nodup) :
    ((insertEntry name value entries).map Prod.fst).Nodup := by
  induction entries with
  | nil => simp [insertEntry]
  | cons entry rest inductionHypothesis =>
    obtain ⟨absent, distinctRest⟩ := List.nodup_cons.mp distinct
    by_cases same : entry.1 = name
    · rw [insertEntry, if_pos same]
      exact List.nodup_cons.mpr ⟨same ▸ absent, distinctRest⟩
    · rw [insertEntry, if_neg same]
      refine List.nodup_cons.mpr ⟨fun member => ?_, inductionHypothesis distinctRest⟩
      exact (mem_names_insertEntry.mp member).elim same absent

/-- A name that is not there yet goes behind all others. -/
theorem insertEntry_of_notMem {name : Text} {entries : List (Text × Value)}
    (fresh : name ∉ entries.map Prod.fst) (value : Value) :
    insertEntry name value entries = entries ++ [(name, value)] := by
  induction entries with
  | nil => rfl
  | cons entry rest inductionHypothesis =>
    rw [List.map_cons, List.mem_cons, not_or] at fresh
    rw [insertEntry, if_neg (Ne.symm fresh.1), inductionHypothesis fresh.2, List.cons_append]

/-- The register of nothing. -/
def empty : Register Value where
  entries := []
  distinct := List.nodup_nil

/-- Puts a value under a name. A name that is there already keeps its place. -/
def insert (register : Register Value) (name : Text) (value : Value) : Register Value where
  entries := insertEntry name value register.entries
  distinct := nodup_names_insertEntry register.distinct

/-- The value under a name. -/
def get? (register : Register Value) (name : Text) : Option Value :=
  register.entries.lookup name

/-- Whether there is a value under a name. -/
def contains (register : Register Value) (name : Text) : Bool :=
  (register.get? name).isSome

/-- The names in order. -/
def names (register : Register Value) : List Text :=
  register.entries.map Prod.fst

/-- The number of names. -/
def size (register : Register Value) : Nat :=
  register.entries.length

/-- Whether a register holds nothing. -/
def isEmpty (register : Register Value) : Bool :=
  register.entries.isEmpty

/-- Whether two registers hold the same values under the same names, in any order. -/
def agrees [DecidableEq Value] (first second : Register Value) : Bool :=
  first.size = second.size ∧
    first.entries.all fun entry => decide (second.get? entry.1 = some entry.2)

/-! ### Looking up -/

theorem get?_eq_some_iff (register : Register Value) (name : Text) (value : Value) :
    register.get? name = some value ↔ (name, value) ∈ register.entries := by
  rw [get?, List.lookup_eq_some_iff]
  constructor
  · rintro ⟨before, after, split, _⟩
    rw [split]
    exact List.mem_append_right before List.mem_cons_self
  · intro member
    obtain ⟨before, after, split⟩ := List.append_of_mem member
    refine ⟨before, after, split, fun entry earlier => ?_⟩
    have distinct := register.distinct
    rw [split, List.map_append, List.map_cons, List.nodup_append] at distinct
    have apart : entry.1 ≠ name :=
      distinct.2.2 entry.1 (List.mem_map_of_mem earlier) name List.mem_cons_self
    exact bne_iff_ne.mpr (Ne.symm apart)

theorem isSome_get?_iff (register : Register Value) (name : Text) :
    (register.get? name).isSome = true ↔ name ∈ register.names := by
  rw [Option.isSome_iff_exists, names, List.mem_map]
  constructor
  · rintro ⟨value, found⟩
    exact ⟨(name, value), (register.get?_eq_some_iff name value).mp found, rfl⟩
  · rintro ⟨⟨same, value⟩, member, rfl⟩
    exact ⟨value, (register.get?_eq_some_iff same value).mpr member⟩

theorem contains_iff (register : Register Value) (name : Text) :
    register.contains name = true ↔ name ∈ register.names :=
  register.isSome_get?_iff name

end Register

end Scaffold
