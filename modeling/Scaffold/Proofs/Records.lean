/-
This file says when a record can be read off a value, and what is read then. A table
gives the fields that it has, an array gives all fields in the order of their
declaration. Reading an array is reading the table that it gives, so what is to be
shown of a record is shown field by field: what assigning one field does to it, and
that it leaves the other fields alone.
-/

import Mathlib.Data.List.Pairwise
import Scaffold.Catalog.Schema
import Scaffold.Proofs.DistinctKeys

namespace Scaffold.Catalog

open Toml (Entries Origin Span Tree keyTexts)

/-! ### What a value gives for a record -/

/-- The value of a key. -/
def valueAt (entries : Entries) (name : Text) : Option Tree :=
  (entries.find? fun entry => entry.1.text = name).map Prod.snd

/-- The elements of an array as values of the given keys, as far as there are keys. -/
def positional (names : List Text) (elements : List Tree) : Entries :=
  List.zipWith (fun name tree => (⟨name, tree.span⟩, tree)) names elements

/-- The value gives these entries for a record whose fields have those names: it is a table without
any other key, or an array with an element for each of them. -/
inductive Gives (names : List Text) : Tree → Entries → Prop
  | table {span : Span} {origin : Origin} {entries : Entries}
      (known : ∀ name ∈ keyTexts entries, name ∈ names) :
      Gives names (.table span origin entries) entries
  | array {span : Span} {ofTables : Bool} {elements : List Tree}
      (enough : names.length ≤ elements.length) :
      Gives names (.array span ofTables elements) (positional names elements)

section Values

variable {key : Toml.Key} {tree : Tree} {rest : Entries} {name : Text}

theorem valueAt_cons_self (same : key.text = name) :
    valueAt ((key, tree) :: rest) name = some tree := by
  simp only [valueAt, List.find?_cons, same, decide_true, Option.map_some]

theorem valueAt_cons_other (other : key.text ≠ name) :
    valueAt ((key, tree) :: rest) name = valueAt rest name := by
  simp only [valueAt, List.find?_cons, decide_eq_false other]

theorem valueAt_of_notMem {entries : Entries} (absent : name ∉ keyTexts entries) :
    valueAt entries name = none := by
  rw [valueAt, List.find?_eq_none.mpr]
  · rfl
  · intro entry member same
    exact absent (List.mem_map.mpr ⟨entry, member, of_decide_eq_true same⟩)

theorem mem_of_valueAt {entries : Entries} (found : valueAt entries name = some tree) :
    ∃ key, key.text = name ∧ (key, tree) ∈ entries := by
  obtain ⟨⟨key, _⟩, isEntry, rfl⟩ := Option.map_eq_some_iff.mp found
  exact ⟨key, of_decide_eq_true (List.find?_some isEntry :), List.mem_of_find?_eq_some isEntry⟩

end Values

theorem keyTexts_positional (names : List Text) (elements : List Tree) :
    keyTexts (positional names elements) = names.take elements.length := by
  induction names generalizing elements with
  | nil => rw [List.take_nil]; rfl
  | cons name names inductionHypothesis =>
    cases elements with
    | nil => rfl
    | cons tree rest => exact congrArg (name :: ·) (inductionHypothesis rest)

theorem wellFormed_positional {names : List Text} (distinct : names.Nodup) {elements : List Tree}
    (each : ∀ tree ∈ elements, tree.WellFormed) :
    Toml.WellFormed (positional names elements) := by
  induction names generalizing elements with
  | nil => exact .nil
  | cons name names inductionHypothesis =>
    cases elements with
    | nil => exact .nil
    | cons tree rest =>
      obtain ⟨fresh, distinctNames⟩ := List.nodup_cons.mp distinct
      obtain ⟨here, eachRest⟩ := List.forall_mem_cons.mp each
      refine Toml.WellFormed.cons_iff.mpr ⟨fun member => ?_, here,
        inductionHypothesis distinctNames eachRest⟩
      have kept : name ∈ names.take rest.length := keyTexts_positional names rest ▸ member
      exact fresh (List.mem_of_mem_take kept)

/-! ### Fields -/

/-- A step that may fail succeeds if it gives something on which the next one succeeds. -/
theorem bind_eq_ok_iff {Fault Value Next : Type} {step : Except Fault Value}
    {next : Value → Except Fault Next} {result : Next} :
    step >>= next = .ok result ↔ ∃ value, step = .ok value ∧ next value = .ok result := by
  cases step with
  | error fault => exact ⟨nofun, nofun⟩
  | ok value =>
    refine ⟨fun done => ⟨value, rfl, done⟩, ?_⟩
    rintro ⟨_, ⟨⟩, done⟩
    exact done

/-- A field of a record: its name, how a value is assigned to it, and what it is for a record to hold
what a part of a document says of the field, or what holds where there is none. -/
structure View (Record : Type) where
  name : Text
  assign : Record → Tree → Except Misfit Record
  Holds : Option Tree → Record → Prop

variable {Record : Type}

/-- A value can be assigned if some record holds it, and is held by the record then. -/
structure View.Lawful (view : View Record) : Prop where
  self {tree : Tree} (wellFormed : tree.WellFormed) {record next : Record}
    (assigned : view.assign record tree = .ok next) : view.Holds (some tree) next
  accepts {tree : Tree} (wellFormed : tree.WellFormed) {holder : Record}
    (holds : view.Holds (some tree) holder) (record : Record) :
    ∃ next, view.assign record tree = .ok next

/-- What comes of a part of a document: what its value gives, or what stands for want of one. -/
def OrAbsent {Value : Type} (gives : Tree → Value → Prop) (absent : Value) :
    Option Tree → Value → Prop
  | none, value => value = absent
  | some tree, value => gives tree value

/-- A reader makes of a value what the value gives, and the wrapping keeps it. -/
def Reads {Raw Value : Type} (read : Tree → Except Misfit Raw) (wrap : Raw → Value)
    (gives : Tree → Value → Prop) : Prop :=
  ∀ tree, tree.WellFormed → ∀ value,
    gives tree value ↔ ∃ raw, read tree = .ok raw ∧ value = wrap raw

theorem Reads.unique {Raw Value : Type} {read : Tree → Except Misfit Raw} {wrap : Raw → Value}
    {gives : Tree → Value → Prop} (reads : Reads read wrap gives) {tree : Tree}
    (wellFormed : tree.WellFormed) {first second : Value} (holds : gives tree first)
    (holds' : gives tree second) : first = second := by
  obtain ⟨raw, read, rfl⟩ := (reads tree wellFormed first).mp holds
  obtain ⟨raw', read', rfl⟩ := (reads tree wellFormed second).mp holds'
  rw [Except.ok.inj (read.symm.trans read')]

theorem OrAbsent.unique {Value : Type} {gives : Tree → Value → Prop} {absent : Value}
    {part : Option Tree}
    (same : ∀ tree ∈ part, ∀ first second, gives tree first → gives tree second → first = second)
    {first second : Value} (holds : OrAbsent gives absent part first)
    (holds' : OrAbsent gives absent part second) : first = second := by
  cases part with
  | none => exact Eq.trans holds (Eq.symm holds')
  | some tree => exact same tree rfl first second holds holds'

/-- The field that holds what is read of a value. -/
def View.ofReader {Raw Value : Type} (name : Text) (read : Tree → Except Misfit Raw)
    (set : Record → Raw → Record) (gives : Tree → Value → Prop) (absent : Value)
    (get : Record → Value) : View Record where
  name := name
  assign record tree := do return set record (← read tree)
  Holds part record := OrAbsent gives absent part (get record)

theorem View.lawful_ofReader {Raw Value : Type} {name : Text} {read : Tree → Except Misfit Raw}
    {wrap : Raw → Value} {gives : Tree → Value → Prop} (reads : Reads read wrap gives)
    {set : Record → Raw → Record} {get : Record → Value}
    (get_set : ∀ record raw, get (set record raw) = wrap raw) (absent : Value) :
    (View.ofReader name read set gives absent get).Lawful where
  self {tree} wellFormed record next assigned := by
    obtain ⟨raw, done, same⟩ := bind_eq_ok_iff.mp assigned
    rw [← Except.ok.inj same]
    exact (reads tree wellFormed _).mpr ⟨raw, done, get_set record raw⟩
  accepts {tree} wellFormed holder holds record := by
    obtain ⟨raw, done, _⟩ := (reads tree wellFormed _).mp holds
    exact ⟨set record raw, bind_eq_ok_iff.mpr ⟨raw, done, rfl⟩⟩

/-- Assigning the one field changes nothing about what a record holds of the other. -/
def View.LeavesAlone (view other : View Record) : Prop :=
  ∀ record tree next, view.assign record tree = .ok next →
    ∀ part, other.Holds part record → other.Holds part next

theorem View.leavesAlone_ofReader {Raw Value Raw' Value' : Type} {name name' : Text}
    {read : Tree → Except Misfit Raw} {read' : Tree → Except Misfit Raw'}
    {gives : Tree → Value → Prop} {gives' : Tree → Value' → Prop} {absent : Value}
    {absent' : Value'} {set : Record → Raw → Record} {set' : Record → Raw' → Record}
    {get : Record → Value} {get' : Record → Value'}
    (get'_set : ∀ record raw, get' (set record raw) = get' record) :
    (View.ofReader name read set gives absent get).LeavesAlone
      (.ofReader name' read' set' gives' absent' get') := by
  intro record tree next assigned part holds
  obtain ⟨raw, _, same⟩ := bind_eq_ok_iff.mp assigned
  rw [← Except.ok.inj same]
  exact (congrArg (OrAbsent gives' absent' part) (get'_set record raw)).mpr holds

/-- Neither field changes the other. -/
def View.Apart (view other : View Record) : Prop :=
  view.LeavesAlone other ∧ other.LeavesAlone view

instance : Std.Symm (@View.Apart Record) where
  symm _ _ := And.symm

/-- A record is the sum of its fields: they have laws, leave each other alone, and tell one record
from any other. -/
structure Shape.Lawful (shape : Shape Record) (nothing : Record) (views : List (View Record)) :
    Prop where
  fields : shape.fields = views.map fun view => (view.name, view.assign)
  distinct : (views.map View.name).Nodup
  lawful : ∀ view ∈ views, view.Lawful
  nothing : ∀ view ∈ views, view.Holds none nothing
  apart : views.Pairwise View.Apart
  unique : ∀ {part : Text → Option Tree}, (∀ name, ∀ tree ∈ part name, tree.WellFormed) →
    ∀ {first second}, (∀ view ∈ views, view.Holds (part view.name) first) →
      (∀ view ∈ views, view.Holds (part view.name) second) → first = second

namespace Shape.Lawful

variable {shape : Shape Record} {nothing : Record} {views : List (View Record)}
  (lawful : shape.Lawful nothing views)
include lawful

theorem names_fields : shape.fields.map Prod.fst = views.map View.name := by
  rw [lawful.fields, List.map_map]
  rfl

theorem lookup_view {view : View Record} (member : view ∈ views) :
    shape.fields.lookup view.name = some view.assign := by
  have distinct : (shape.fields.map Prod.fst).Nodup := lawful.names_fields ▸ lawful.distinct
  have field : (view.name, view.assign) ∈ shape.fields := by
    rw [lawful.fields]
    exact List.mem_map_of_mem member
  exact (Register.get?_eq_some_iff ⟨shape.fields, distinct⟩ view.name view.assign).mpr field

theorem exists_view_of_lookup {name : Text} {assign : Record → Tree → Except Misfit Record}
    (found : shape.fields.lookup name = some assign) :
    ∃ view ∈ views, view.name = name ∧ view.assign = assign := by
  obtain ⟨before, behind, split, _⟩ := List.lookup_eq_some_iff.mp found
  have member : (name, assign) ∈ shape.fields := split ▸ List.mem_append_right _ List.mem_cons_self
  rw [lawful.fields] at member
  obtain ⟨view, inViews, same⟩ := List.mem_map.mp member
  exact ⟨view, inViews, congrArg Prod.fst same, congrArg Prod.snd same⟩

/-- What assigning one entry after the other does: all keys are fields, and the record holds what
they say of its fields, or else what it held before. -/
theorem holds_of_assignEntries {entries : Entries} (wellFormed : Toml.WellFormed entries)
    {record next : Record} (done : shape.assignEntries record entries = .ok next) :
    (∀ name ∈ keyTexts entries, name ∈ views.map View.name) ∧
      ∀ view ∈ views, ∀ before, view.Holds before record →
        view.Holds ((valueAt entries view.name).or before) next := by
  induction entries generalizing record with
  | nil =>
    rw [assignEntries] at done
    exact ⟨List.forall_mem_nil _, fun view _ before holds => Except.ok.inj done ▸ holds⟩
  | cons entry rest inductionHypothesis =>
    obtain ⟨key, tree⟩ := entry
    obtain ⟨fresh, here, wellFormedRest⟩ := Toml.WellFormed.cons_iff.mp wellFormed
    rw [assignEntries] at done
    cases found : shape.fields.lookup key.text with
    | none =>
      rw [found] at done
      cases done
    | some assign =>
      rw [found] at done
      obtain ⟨between, assigned, onward⟩ : ∃ between, assign record tree = .ok between ∧
          shape.assignEntries between rest = .ok next := bind_eq_ok_iff.mp done
      obtain ⟨view, inViews, named, rfl⟩ := lawful.exists_view_of_lookup found
      obtain ⟨known, held⟩ := inductionHypothesis wellFormedRest onward
      refine ⟨List.forall_mem_cons.mpr ⟨List.mem_map.mpr ⟨view, inViews, named⟩, known⟩, ?_⟩
      intro other inViews' before holds
      by_cases same : key.text = other.name
      · have assigns : view.assign = other.assign := by
          have both := lawful.lookup_view inViews'
          rw [← same, found] at both
          exact Option.some_inj.mp both
        have later := held other inViews' (some tree)
          ((lawful.lawful other inViews').self here (assigns ▸ assigned))
        rw [← same, valueAt_of_notMem fresh] at later
        rw [valueAt_cons_self same]
        exact later
      · rw [valueAt_cons_other same]
        have distinct : view ≠ other := fun equal => same (equal ▸ named.symm)
        exact held other inViews' before
          ((lawful.apart.forall inViews inViews' distinct).1 _ _ _ assigned before holds)

/-- Entries can be assigned if their keys are fields and each of them is held by some record. -/
theorem exists_assignEntries {entries : Entries} (wellFormed : Toml.WellFormed entries)
    (known : ∀ name ∈ keyTexts entries, name ∈ views.map View.name)
    (fits : ∀ view ∈ views, ∀ tree ∈ valueAt entries view.name,
      ∃ holder, view.Holds (some tree) holder) (record : Record) :
    ∃ next, shape.assignEntries record entries = .ok next := by
  induction entries generalizing record with
  | nil => exact ⟨record, rfl⟩
  | cons entry rest inductionHypothesis =>
    obtain ⟨key, tree⟩ := entry
    obtain ⟨fresh, here, wellFormedRest⟩ := Toml.WellFormed.cons_iff.mp wellFormed
    obtain ⟨isKnown, knownRest⟩ := List.forall_mem_cons.mp known
    obtain ⟨view, inViews, named⟩ := List.mem_map.mp isKnown
    obtain ⟨holder, holds⟩ := fits view inViews tree (valueAt_cons_self named.symm)
    obtain ⟨between, assigned⟩ := (lawful.lawful view inViews).accepts here holds record
    obtain ⟨next, done⟩ := inductionHypothesis wellFormedRest knownRest
      (fun other inViews' tree' found => fits other inViews' tree' <| by
        obtain ⟨key', named', member⟩ := mem_of_valueAt found
        have apart : key.text ≠ other.name := fun same =>
          fresh (List.mem_map.mpr ⟨_, member, named'.trans same.symm⟩)
        exact (valueAt_cons_other apart).trans found) between
    refine ⟨next, ?_⟩
    rw [assignEntries, show key.text = view.name from named.symm, lawful.lookup_view inViews]
    exact bind_eq_ok_iff.mpr ⟨between, assigned, done⟩

/-- The entries of a table make a record exactly if all keys are fields and the record holds what they
say of each field. -/
theorem assignEntries_eq_ok_iff {entries : Entries} (wellFormed : Toml.WellFormed entries)
    (record : Record) :
    shape.assignEntries nothing entries = .ok record ↔
      (∀ name ∈ keyTexts entries, name ∈ views.map View.name) ∧
        ∀ view ∈ views, view.Holds (valueAt entries view.name) record := by
  have holds {next : Record} (done : shape.assignEntries nothing entries = .ok next)
      (view : View Record) (member : view ∈ views) :
      view.Holds (valueAt entries view.name) next := by
    have held := (lawful.holds_of_assignEntries wellFormed done).2 view member none
      (lawful.nothing view member)
    rwa [Option.or_none] at held
  constructor
  · exact fun done => ⟨(lawful.holds_of_assignEntries wellFormed done).1, holds done⟩
  · rintro ⟨known, held⟩
    obtain ⟨next, done⟩ := lawful.exists_assignEntries wellFormed known
      (fun view member tree found => ⟨record, found ▸ held view member⟩) nothing
    have each (name : Text) (tree : Tree) (found : tree ∈ valueAt entries name) :
        tree.WellFormed := by
      obtain ⟨key, _, member⟩ := mem_of_valueAt found
      exact wellFormed.each _ member
    rw [done, lawful.unique each (holds done) held]

/-- Assigning elements in order is assigning the entries that they give by position, if there are
enough of them. -/
theorem assignElements_eq_ok_iff {tooShort : Misfit} {left : List (View Record)}
    (inViews : ∀ view ∈ left, view ∈ views) {elements : List Tree} {record next : Record} :
    assignElements tooShort record (left.map fun view => (view.name, view.assign)) elements =
        .ok next ↔
      (left.map View.name).length ≤ elements.length ∧
        shape.assignEntries record (positional (left.map View.name) elements) = .ok next := by
  induction left generalizing elements record with
  | nil => exact ⟨fun done => ⟨Nat.zero_le _, done⟩, And.right⟩
  | cons view left inductionHypothesis =>
    obtain ⟨isView, leftInViews⟩ := List.forall_mem_cons.mp inViews
    cases elements with
    | nil => exact ⟨nofun, fun both => absurd both.1 (Nat.not_succ_le_zero _)⟩
    | cons tree rest =>
      have entries : shape.assignEntries record
          (positional ((view :: left).map View.name) (tree :: rest)) =
          (view.assign record tree >>= fun between =>
            shape.assignEntries between (positional (left.map View.name) rest)) := by
        rw [positional, List.map_cons, List.zipWith_cons_cons, assignEntries,
          lawful.lookup_view isView]
        rfl
      have elements : assignElements tooShort record
          ((view :: left).map fun view => (view.name, view.assign)) (tree :: rest) =
          (view.assign record tree >>= fun between =>
            assignElements tooShort between (left.map fun view => (view.name, view.assign))
              rest) := by
        rw [List.map_cons, assignElements]
      rw [entries, elements, bind_eq_ok_iff, bind_eq_ok_iff, List.map_cons, List.length_cons,
        List.length_cons, Nat.succ_le_succ_iff]
      simp only [inductionHypothesis leftInViews]
      constructor
      · rintro ⟨between, assigned, enough, done⟩
        exact ⟨enough, between, assigned, done⟩
      · rintro ⟨enough, between, assigned, done⟩
        exact ⟨between, assigned, enough, done⟩

/-- A record can be read off a value exactly if the value gives entries for it, and it holds what
they say of each field. -/
theorem read_eq_ok_iff (noMoment : Tree.momentKey ∉ views.map View.name) {tree : Tree}
    (wellFormed : tree.WellFormed) (record : Record) :
    shape.read nothing tree = .ok record ↔
      ∃ given, Gives (views.map View.name) tree given ∧
        ∀ view ∈ views, view.Holds (valueAt given view.name) record := by
  cases tree with
  | text span value => exact ⟨nofun, fun ⟨_, gives, _⟩ => nomatch gives⟩
  | plain span value =>
    refine ⟨fun done => ?_, fun ⟨_, gives, _⟩ => nomatch gives⟩
    cases value with
    | moment written =>
      -- taken for a table, a moment has a key that is no field
      obtain ⟨known, _⟩ := lawful.holds_of_assignEntries
        (Toml.WellFormed.cons_iff.mpr ⟨List.not_mem_nil, .text span written, .nil⟩) done
      exact absurd (known _ List.mem_cons_self) noMoment
    | boolean value => cases done
    | integer value => cases done
    | real value => cases done
    | valueless => cases done
  | table span origin entries =>
    have read := lawful.assignEntries_eq_ok_iff (Tree.wellFormed_table_iff.mp wellFormed) record
    refine Iff.trans read ⟨fun ⟨known, held⟩ => ⟨entries, .table known, held⟩, ?_⟩
    rintro ⟨_, ⟨known⟩ | _, held⟩
    exact ⟨known, held⟩
  | array span ofTables elements =>
    have wellFormedGiven : Toml.WellFormed (positional (views.map View.name) elements) :=
      wellFormed_positional lawful.distinct (Tree.wellFormed_array_iff.mp wellFormed)
    rw [read, lawful.fields, lawful.assignElements_eq_ok_iff fun _ member => member,
      lawful.assignEntries_eq_ok_iff wellFormedGiven]
    constructor
    · rintro ⟨enough, _, held⟩
      exact ⟨_, .array enough, held⟩
    · rintro ⟨_, _ | ⟨enough⟩, held⟩
      refine ⟨enough, fun name member => ?_, held⟩
      exact List.mem_of_mem_take (keyTexts_positional _ elements ▸ member)

end Shape.Lawful

end Scaffold.Catalog
