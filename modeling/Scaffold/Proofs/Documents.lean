/-
This file shows that there is a document for any declarations at all. So what is
said of all documents that declare something is never said of none.

The document has a line for the settings, if there are any, and one for each of the
two tables. Reading it goes through the options of a scalar type like reading them
from JSON does: what was read so far is always the part of them that was seen.
-/

import Scaffold.Catalog.Reading
import Scaffold.Proofs.ReadBack
import Scaffold.Proofs.Writing

namespace Scaffold

open Toml (Atom Entries Member ReadsAs Shows Tree readsAs_writeRecord writeRecord)

/-! ### Written declarations -/

/-- The value that is written for an option, if it is given. -/
def Scalar.Options.atom? (options : Scalar.Options) : Scalar.Field → Option Atom
  | .text field => (options.text? field).map .text
  | .flag field => (options.flag? field).map .flag

/-- Those of some options that are given, by their names. -/
def Scalar.Options.atoms (options : Scalar.Options) (fields : List Scalar.Field) :
    List (Text × Atom) :=
  fields.filterMap fun field => (options.atom? field).map (field.name, ·)

/-- The written form of a register, given how a value is written. -/
def Register.write {Value : Type} (register : Register Value) (writeValue : Value → Text) : Text :=
  Toml.writeTable (register.entries.map fun pair => (pair.1, writeValue pair.2))

namespace Catalog

open Scalar (Field Options)

/-- The fields of an enumeration that are given, by their names. -/
def Enumeration.atoms (enumeration : Enumeration) : List (Text × Atom) :=
  (enumeration.name.toList.map fun name => ("name".toList, .text name)) ++
    (enumeration.scope.toList.map fun scope => ("scope".toList, .text scope)) ++
      [("default".toList, .text enumeration.default)]

/-- The members of a document that makes the declarations, with what is read of their values. -/
def Declarations.members (declarations : Declarations) : List Member :=
  (declarations.separator.toList.map fun separator =>
    ⟨"settings".toList, writeRecord [("scope_separator".toList, .text separator)],
      fun tree => settingsShape.read none tree = .ok (some separator)⟩) ++
  [⟨"scalars".toList,
      declarations.scalars.write fun options => writeRecord (options.atoms Field.all),
      fun tree => readRegister (optionsShape.read {}) tree = .ok declarations.scalars⟩,
   ⟨"enums".toList,
      declarations.enums.write fun enumeration => writeRecord enumeration.atoms,
      fun tree => readRegister readEnumeration tree = .ok declarations.enums⟩]

/-- A document that makes the declarations. -/
def Declarations.write (declarations : Declarations) : Text :=
  Toml.writeDocument (declarations.members.map Member.pair)

end Catalog

/-! ### Options that were read so far -/

namespace Scalar.Options.ReadSoFar

variable {source options : Options} {seen : List Field} {field : Field}

/-- A field that is not given counts as seen. -/
theorem skip (soFar : source.ReadSoFar seen options) (absent : source.atom? field = none) :
    source.ReadSoFar (field :: seen) options := by
  have null : source.token field = .null := by
    cases field <;> simp_all [atom?, token]
  intro other
  rw [soFar]
  by_cases same : other = field
  · simp [same, null]
  · simp [same]

/-- A field that is given is seen once its value is assigned. -/
theorem take (soFar : source.ReadSoFar seen options) (fresh : field ∉ seen) {atom : Atom}
    (given : source.atom? field = some atom) :
    ∃ next, options.assign field atom.found = .ok next ∧
      source.ReadSoFar (field :: seen) next := by
  have shown : found? (source.token field) = some atom.found := by
    cases field with
    | text field =>
      obtain ⟨value, held, rfl⟩ := Option.map_eq_some_iff.mp given
      rw [token, held]
      rfl
    | flag field =>
      obtain ⟨value, held, rfl⟩ := Option.map_eq_some_iff.mp given
      rw [token, held]
      rfl
  obtain ⟨next, assigned, soFar⟩ := soFar.step fresh
  refine ⟨next, ?_, soFar⟩
  rw [assignToken, shown] at assigned
  cases result : options.assign field atom.found <;> simp_all

end Scalar.Options.ReadSoFar

namespace Catalog

open Scalar (Field Options)

/-! ### One entry of a table after the other -/

theorem readText_of_found {tree : Tree} {value : Text} (found : tree.found = .text value) :
    readText tree = .ok value := by
  rw [readText, found]

namespace Shape

variable {Record : Type} (shape : Shape Record)

theorem assignEntries_cons {key : Toml.Key} {name : Text} {tree : Tree} {record : Record}
    {assign : Record → Tree → Except Misfit Record} (next : Record) (named : key.text = name)
    (field : shape.fields.lookup name = some assign) (assigned : assign record tree = .ok next)
    (rest : Entries) :
    shape.assignEntries record ((key, tree) :: rest) = shape.assignEntries next rest := by
  rw [assignEntries, named, field]
  simp only [assigned]
  rfl

/-- A text that may be absent is assigned to its field if it is there. -/
theorem exists_assignEntries_optional {name : Text} {more : List (Text × Atom)} {entries : Entries}
    (value : Option Text) (set : Record → Text → Record)
    (field : shape.fields.lookup name = some fun record tree => do
      return set record (← readText tree))
    (shows : Shows ((value.toList.map fun value => (name, .text value)) ++ more) entries) :
    ∃ rest, Shows more rest ∧ ∀ record, shape.assignEntries record entries =
      shape.assignEntries (value.elim record (set record)) rest := by
  cases value with
  | none => exact ⟨entries, shows, fun _ => rfl⟩
  | some value =>
    obtain ⟨key, tree, rest, rfl, named, found, showsRest⟩ := shows.exists_cons
    refine ⟨rest, showsRest, fun record => shape.assignEntries_cons _ named field ?_ rest⟩
    rw [readText_of_found found]
    rfl

end Shape

theorem lookup_options (field : Field) :
    optionsShape.fields.lookup field.name = some fun options tree =>
      (options.assign field tree.found).mapError fun fault => ⟨fault, tree.span⟩ := by
  have distinct : (optionsShape.fields.map Prod.fst).Nodup := by decide
  exact (Register.get?_eq_some_iff ⟨optionsShape.fields, distinct⟩ field.name _).mpr
    (List.mem_map_of_mem (Field.mem_all field))

/-- Entries for the fields of some options that are given are read as what was not seen of them. -/
theorem exists_assignEntries_options {source options : Options} {seen fields : List Field}
    {entries : Entries} (distinct : fields.Nodup) (fresh : ∀ field ∈ fields, field ∉ seen)
    (soFar : source.ReadSoFar seen options)
    (shows : Shows (source.atoms fields) entries) :
    ∃ read, optionsShape.assignEntries options entries = .ok read ∧
      source.ReadSoFar (fields.reverse ++ seen) read := by
  induction fields generalizing seen options entries with
  | nil =>
    cases shows
    exact ⟨options, rfl, soFar⟩
  | cons field more inductionHypothesis =>
    obtain ⟨headApart, distinct⟩ := List.nodup_cons.mp distinct
    have headFresh : field ∉ seen := fresh field List.mem_cons_self
    have moreFresh : ∀ other ∈ more, other ∉ field :: seen := by
      intro other member
      rw [List.mem_cons, not_or]
      exact ⟨fun same => headApart (same ▸ member), fresh other (List.mem_cons_of_mem _ member)⟩
    rw [List.reverse_cons, List.append_assoc, List.singleton_append]
    cases given : source.atom? field with
    | none =>
      rw [Options.atoms, List.filterMap_cons, given] at shows
      exact inductionHypothesis distinct moreFresh (soFar.skip given) shows
    | some atom =>
      rw [Options.atoms, List.filterMap_cons, given] at shows
      obtain ⟨next, assigned, soFar⟩ := soFar.take headFresh given
      obtain ⟨key, tree, rest, rfl, named, found, showsRest⟩ := shows.exists_cons
      obtain ⟨read, done, soFar⟩ := inductionHypothesis distinct moreFresh soFar showsRest
      refine ⟨read, ?_, soFar⟩
      rw [← done]
      refine optionsShape.assignEntries_cons next named (lookup_options field) ?_ rest
      rw [found, assigned]
      rfl

/-! ### What is written for a value -/

theorem sublist_names_atoms (options : Options) (fields : List Field) :
    ((options.atoms fields).map Prod.fst).Sublist (fields.map Field.name) := by
  induction fields with
  | nil => exact .slnil
  | cons field fields inductionHypothesis =>
    rw [Options.atoms, List.filterMap_cons]
    cases options.atom? field with
    | none => exact inductionHypothesis.cons _
    | some atom => exact inductionHypothesis.cons_cons _

theorem readsAs_options (options : Options) (depth : Nat) :
    ReadsAs (depth + 1) (writeRecord (options.atoms Field.all)) fun tree =>
      optionsShape.read {} tree = .ok options := by
  have distinct : ((options.atoms Field.all).map Prod.fst).Nodup :=
    (sublist_names_atoms options Field.all).nodup (by decide)
  refine (readsAs_writeRecord distinct).imp ?_
  rintro tree ⟨span, entries, rfl, shows⟩
  obtain ⟨read, done, soFar⟩ := exists_assignEntries_options Field.nodup_all
    (fun _ _ => List.not_mem_nil) (Options.ReadSoFar.nothing options) shows
  rw [← soFar.eq_of_all fun field =>
    List.mem_append_left _ (List.mem_reverse.mpr (Field.mem_all field))]
  exact done

theorem readsAs_enumeration (enumeration : Enumeration) (depth : Nat) :
    ReadsAs (depth + 1) (writeRecord enumeration.atoms) fun tree =>
      readEnumeration tree = .ok enumeration := by
  obtain ⟨name, scope, default⟩ := enumeration
  have distinct : ((Enumeration.mk name scope default).atoms.map Prod.fst).Nodup := by
    cases name <;> cases scope <;> simp [Enumeration.atoms]
  refine (readsAs_writeRecord distinct).imp ?_
  rintro tree ⟨span, entries, rfl, shows⟩
  rw [Enumeration.atoms, List.append_assoc] at shows
  obtain ⟨behindName, shows, readName⟩ := enumerationShape.exists_assignEntries_optional name
    (fun fields name => { fields with name := some name }) rfl shows
  obtain ⟨behindScope, shows, readScope⟩ := enumerationShape.exists_assignEntries_optional scope
    (fun fields scope => { fields with scope := some scope }) rfl shows
  obtain ⟨behind, shows, readDefault⟩ := enumerationShape.exists_assignEntries_optional (some default)
    (fun fields default => { fields with default := some default }) rfl shows
  cases shows
  have fields : enumerationShape.read {} (.table span .inline entries) =
      .ok ⟨name, scope, some default⟩ := by
    refine (readName {}).trans ((readScope _).trans ((readDefault _).trans ?_))
    cases name <;> cases scope <;> rfl
  rw [readEnumeration, fields]
  rfl

/-- Values are put under names that are not there yet, up to the last one. -/
theorem foldlM_insert {Value : Type} {read : Tree → Except Misfit Value}
    {register whole : Register Value} {added : List (Text × Value)} {entries : Entries}
    (holds : List.Forall₂ (fun pair (entry : Toml.Key × Tree) =>
      entry.1.text = pair.1 ∧ read entry.2 = .ok pair.2) added entries)
    (split : whole.entries = register.entries ++ added) :
    entries.foldlM (fun register (key, tree) => do
      let value ← read tree
      return Register.insert register key.text value) register = .ok whole := by
  induction holds generalizing register with
  | nil =>
    have same : register = whole := by
      cases whole
      cases register
      rw [Register.mk.injEq]
      exact (split.trans (List.append_nil _)).symm
    rw [same]
    rfl
  | @cons pair entry added rest here _ inductionHypothesis =>
    have fresh : pair.1 ∉ register.entries.map Prod.fst := by
      have distinct := whole.distinct
      rw [split, List.map_append, List.nodup_append] at distinct
      exact fun met => distinct.2.2 _ met _ List.mem_cons_self rfl
    have inserted : (register.insert pair.1 pair.2).entries = register.entries ++ [pair] :=
      Register.insertEntry_of_notMem fresh pair.2
    have onward := inductionHypothesis (by rw [inserted, List.append_assoc]; exact split)
    rw [List.foldlM_cons, ← onward]
    simp only [here.1, here.2]
    rfl

theorem readsAs_register {Value : Type} {register : Register Value} {writeValue : Value → Text}
    {read : Tree → Except Misfit Value} {depth : Nat}
    (reads : ∀ value, ReadsAs depth (writeValue value) fun tree => read tree = .ok value) :
    ReadsAs (depth + 1) (register.write writeValue) fun tree =>
      readRegister read tree = .ok register := by
  have tables := Toml.readsAs_writeTable_map (fun pair : Text × Value =>
    ⟨pair.1, writeValue pair.2, fun tree => read tree = .ok pair.2⟩)
    (fun pair _ => reads pair.2) register.distinct
  refine tables.imp ?_
  rintro tree ⟨span, entries, rfl, holds⟩
  exact foldlM_insert holds (List.nil_append _).symm

theorem readsAs_settings (separator : Text) (depth : Nat) :
    ReadsAs (depth + 1) (writeRecord [("scope_separator".toList, .text separator)]) fun tree =>
      settingsShape.read none tree = .ok (some separator) := by
  refine (readsAs_writeRecord (by simp)).imp ?_
  rintro tree ⟨span, entries, rfl, shows⟩
  obtain ⟨behind, shows, read⟩ := settingsShape.exists_assignEntries_optional (some separator)
    (fun _ separator => some separator) rfl shows
  cases shows
  exact read none

/-! ### Documents -/

theorem Declarations.reads_members (declarations : Declarations) :
    ∀ member ∈ declarations.members, ReadsAs Toml.nestingLimit member.written member.meant := by
  rw [members, List.forall_mem_append, List.forall_mem_map]
  refine ⟨fun separator _ => readsAs_settings separator _, ?_⟩
  rw [List.forall_mem_cons, List.forall_mem_singleton]
  exact ⟨readsAs_register fun options => readsAs_options options _,
    readsAs_register fun enumeration => readsAs_enumeration enumeration _⟩

theorem Declarations.ofEntries_of_holds {declarations : Declarations} {entries : Entries}
    (holds : List.Forall₂ Member.Holds declarations.members entries) :
    ofEntries entries = .ok declarations := by
  obtain ⟨separator, scalars, enums⟩ := declarations
  have tables (front : Declarations) {entries : Entries}
      (holds : List.Forall₂ Member.Holds (members ⟨none, scalars, enums⟩) entries) :
      catalogShape.assignEntries front entries = .ok ⟨front.separator, scalars, enums⟩ := by
    obtain ⟨⟨key, tree⟩, rest, ⟨named, read⟩, holdRest, rfl⟩ := List.forall₂_cons_left_iff.mp holds
    obtain ⟨⟨other, table⟩, _, ⟨namedOther, readOther⟩, ⟨⟩, rfl⟩ :=
      List.forall₂_cons_left_iff.mp holdRest
    rw [catalogShape.assignEntries_cons { front with scalars } named rfl (by rw [read]; rfl),
      catalogShape.assignEntries_cons { front with scalars, enums } namedOther rfl
        (by rw [readOther]; rfl)]
    rfl
  cases separator with
  | none => exact tables _ holds
  | some separator =>
    obtain ⟨⟨key, tree⟩, rest, ⟨named, read⟩, holdTables, rfl⟩ :=
      List.forall₂_cons_left_iff.mp holds
    rw [ofEntries, catalogShape.assignEntries_cons ⟨some separator, .empty, .empty⟩ named rfl
      (by rw [read]; rfl)]
    exact tables _ holdTables

/-- Any declarations at all are those of the document that is written for them. -/
theorem declarations_write (declarations : Declarations) (filename : Text) :
    (⟨declarations.write, filename⟩ : Source).declarations = .ok declarations := by
  have distinct : (declarations.members.map Member.name).Nodup := by
    cases given : declarations.separator <;> simp [Declarations.members, given]
  obtain ⟨entries, read, holds⟩ := Toml.read?_writeDocument declarations.reads_members distinct
  rw [Source.declarations_eq_ok_iff]
  exact ⟨entries, read, Declarations.ofEntries_of_holds holds⟩

end Catalog

end Scaffold
