/-
This file says what a document declares, in terms of the document alone: which parts of
it are texts and truth values, and which tables and arrays give the records made of
them. The declarations that are read are those, for the settings, the options of a
scalar type, an enumeration and the catalog as a whole.
-/

import Mathlib.Data.List.Forall2
import Scaffold.Proofs.Documents
import Scaffold.Proofs.Records

namespace Scaffold.Catalog

open Scalar (Field FlagField Options TextField)
open Toml (Entries Origin Span Tree keyTexts)

/-! ### What values give -/

/-- The value is this text. -/
def GivesText (tree : Tree) (value : Option Text) : Prop :=
  ∃ span text, tree = .text span text ∧ value = some text

/-- The value is this truth value. -/
def GivesFlag (tree : Tree) (value : Option Bool) : Prop :=
  ∃ span flag, tree = .plain span (.boolean flag) ∧ value = some flag

/-- The value gives this separator, or the settings without one. -/
def GivesSettings (tree : Tree) (separator : Option Text) : Prop :=
  ∃ given, Gives ["scope_separator".toList] tree given ∧
    OrAbsent GivesText none (valueAt given "scope_separator".toList) separator

/-- The value gives these options of a scalar type. -/
def GivesOptions (tree : Tree) (options : Options) : Prop :=
  ∃ given, Gives Field.names tree given ∧
    (∀ field, OrAbsent GivesText none (valueAt given (Field.text field).name)
      (options.text? field)) ∧
    ∀ field, OrAbsent GivesFlag none (valueAt given (Field.flag field).name)
      (options.flag? field)

/-- The value gives this enumeration. -/
def GivesEnumeration (tree : Tree) (enumeration : Enumeration) : Prop :=
  ∃ given, Gives ["name".toList, "scope".toList, "default".toList] tree given ∧
    OrAbsent GivesText none (valueAt given "name".toList) enumeration.name ∧
    OrAbsent GivesText none (valueAt given "scope".toList) enumeration.scope ∧
    ∃ tree ∈ valueAt given "default".toList, GivesText tree (some enumeration.default)

/-- The value is a table that gives for each key, in the order of the document, what its value
gives. -/
def GivesRegister {Value : Type} (gives : Tree → Value → Prop) (tree : Tree)
    (register : Register Value) : Prop :=
  ∃ span origin entries, tree = .table span origin entries ∧
    List.Forall₂ (fun entry pair => pair.1 = entry.1.text ∧ gives entry.2 pair.2) entries
      register.entries

/-- The document makes these declarations: all its tables are known, and what is absent from it is
absent from them. -/
structure Declares (entries : Entries) (declarations : Declarations) : Prop where
  known : ∀ name ∈ keyTexts entries,
    name ∈ ["settings".toList, "scalars".toList, "enums".toList]
  settings : OrAbsent GivesSettings none (valueAt entries "settings".toList)
    declarations.separator
  scalars : OrAbsent (GivesRegister GivesOptions) .empty (valueAt entries "scalars".toList)
    declarations.scalars
  enums : OrAbsent (GivesRegister GivesEnumeration) .empty (valueAt entries "enums".toList)
    declarations.enums

/-! ### Plain values -/

theorem readText_eq_ok_iff {tree : Tree} {text : Text} :
    readText tree = .ok text ↔ ∃ span, tree = .text span text := by
  constructor
  · intro done
    cases tree with
    | text span value => exact ⟨span, congrArg _ (Except.ok.inj done)⟩
    | plain span value => cases value <;> cases done
    | array span ofTables elements => cases done
    | table span origin entries => cases done
  · rintro ⟨span, rfl⟩
    rfl

theorem reads_readText : Reads readText some GivesText := by
  intro tree _ value
  constructor
  · rintro ⟨span, text, rfl, rfl⟩
    exact ⟨text, rfl, rfl⟩
  · rintro ⟨text, done, rfl⟩
    obtain ⟨span, rfl⟩ := readText_eq_ok_iff.mp done
    exact ⟨span, text, rfl, rfl⟩

/-- What a reader makes of a value is what the value gives. -/
theorem reads_of_eq_ok_iff {Value : Type} {read : Tree → Except Misfit Value}
    {gives : Tree → Value → Prop}
    (reads : ∀ tree, tree.WellFormed → ∀ value, read tree = .ok value ↔ gives tree value) :
    Reads read id gives := by
  intro tree wellFormed value
  rw [← reads tree wellFormed]
  exact ⟨fun done => ⟨value, done, rfl⟩, fun ⟨_, done, same⟩ => same ▸ done⟩

/-! ### Settings -/

def settingsViews : List (View (Option Text)) :=
  [.ofReader "scope_separator".toList readText (fun _ separator => some separator) GivesText none id]

theorem lawful_settingsShape : settingsShape.Lawful none settingsViews where
  fields := rfl
  distinct := List.pairwise_singleton _ _
  lawful := by
    rw [settingsViews, List.forall_mem_singleton]
    refine View.lawful_ofReader reads_readText ?_ none
    exact fun _ _ => rfl
  nothing := List.forall_mem_singleton.mpr rfl
  apart := List.pairwise_singleton _ _
  unique each first second holds holds' :=
    OrAbsent.unique (fun tree found _ _ => reads_readText.unique (each _ tree found))
      (holds _ List.mem_cons_self) (holds' _ List.mem_cons_self)

theorem read_settings_eq_ok_iff (tree : Tree) (wellFormed : tree.WellFormed)
    (separator : Option Text) :
    settingsShape.read none tree = .ok separator ↔ GivesSettings tree separator := by
  rw [lawful_settingsShape.read_eq_ok_iff (by decide) wellFormed]
  exact exists_congr fun given => and_congr_right fun _ => List.forall_mem_singleton

/-! ### Options -/

/-- What it is for options to hold what a part of a document says of one of them. -/
def holdsOption (field : Field) (part : Option Tree) (options : Options) : Prop :=
  match field with
  | .text field => OrAbsent GivesText none part (options.text? field)
  | .flag field => OrAbsent GivesFlag none part (options.flag? field)

/-- One option as a field of the record. -/
def optionView (field : Field) : View Options where
  name := field.name
  assign options tree :=
    (options.assign field tree.found).mapError fun fault => ⟨fault, tree.span⟩
  Holds := holdsOption field

theorem assign_text_eq_ok_iff {field : TextField} {options next : Options} {tree : Tree} :
    (optionView (.text field)).assign options tree = .ok next ↔
      ∃ span text, tree = .text span text ∧ options.setText field text = next := by
  constructor
  · intro assigned
    cases tree with
    | text span value => exact ⟨span, value, rfl, Except.ok.inj assigned⟩
    | plain span value => cases value <;> cases assigned
    | array span ofTables elements => cases assigned
    | table span origin entries => cases assigned
  · rintro ⟨span, text, rfl, rfl⟩
    rfl

theorem assign_flag_eq_ok_iff {field : FlagField} {options next : Options} {tree : Tree} :
    (optionView (.flag field)).assign options tree = .ok next ↔
      ∃ span flag, tree = .plain span (.boolean flag) ∧ options.setFlag field flag = next := by
  constructor
  · intro assigned
    cases tree with
    | plain span value =>
      cases value with
      | boolean flag => exact ⟨span, flag, rfl, Except.ok.inj assigned⟩
      | integer value => cases assigned
      | real value => cases assigned
      | moment written => cases assigned
      | valueless => cases assigned
    | text span value => cases assigned
    | array span ofTables elements => cases assigned
    | table span origin entries => cases assigned
  · rintro ⟨span, flag, rfl, rfl⟩
    rfl

theorem lawful_optionView (field : Field) : (optionView field).Lawful where
  self {tree} _ options next assigned := by
    cases field with
    | text field =>
      obtain ⟨span, text, rfl, rfl⟩ := assign_text_eq_ok_iff.mp assigned
      exact ⟨span, text, rfl, by rw [Options.text?_setText, if_pos rfl]⟩
    | flag field =>
      obtain ⟨span, flag, rfl, rfl⟩ := assign_flag_eq_ok_iff.mp assigned
      exact ⟨span, flag, rfl, by rw [Options.flag?_setFlag, if_pos rfl]⟩
  accepts {tree} _ holder holds options := by
    cases field with
    | text field =>
      obtain ⟨span, text, rfl, _⟩ := holds
      exact ⟨_, assign_text_eq_ok_iff.mpr ⟨span, text, rfl, rfl⟩⟩
    | flag field =>
      obtain ⟨span, flag, rfl, _⟩ := holds
      exact ⟨_, assign_flag_eq_ok_iff.mpr ⟨span, flag, rfl, rfl⟩⟩

/-- Assigning one option leaves the others as they are. -/
theorem leavesAlone_optionView {field other : Field} (different : field ≠ other) :
    (optionView field).LeavesAlone (optionView other) := by
  intro options tree next assigned part holds
  show holdsOption other part next
  cases field with
  | text field =>
    obtain ⟨_, text, _, rfl⟩ := assign_text_eq_ok_iff.mp assigned
    cases other with
    | text other =>
      rw [holdsOption, Options.text?_setText, if_neg fun same => different (congrArg _ same.symm)]
      exact holds
    | flag other => rwa [holdsOption, Options.flag?_setText]
  | flag field =>
    obtain ⟨_, flag, _, rfl⟩ := assign_flag_eq_ok_iff.mp assigned
    cases other with
    | text other => rwa [holdsOption, Options.text?_setFlag]
    | flag other =>
      rw [holdsOption, Options.flag?_setFlag, if_neg fun same => different (congrArg _ same.symm)]
      exact holds

theorem GivesFlag.unique {tree : Tree} {first second : Option Bool}
    (holds : GivesFlag tree first) (holds' : GivesFlag tree second) : first = second := by
  obtain ⟨span, flag, rfl, rfl⟩ := holds
  obtain ⟨_, _, same, rfl⟩ := holds'
  cases same
  rfl

theorem lawful_optionsShape : optionsShape.Lawful {} (Field.all.map optionView) where
  fields := by
    rw [List.map_map]
    rfl
  distinct := by decide
  lawful := List.forall_mem_map.mpr fun field _ => lawful_optionView field
  nothing := List.forall_mem_map.mpr fun field _ => by
    rcases field with field | field <;> cases field <;> rfl
  apart := by
    rw [List.pairwise_map]
    exact Field.nodup_all.imp fun different =>
      ⟨leavesAlone_optionView different, leavesAlone_optionView different.symm⟩
  unique {part} each first second holds holds' := by
    rw [List.forall_mem_map] at holds holds'
    refine Options.eq_of_fields (fun field => ?_) (fun field => ?_)
    · exact OrAbsent.unique (fun tree found _ _ => reads_readText.unique (each _ tree found))
        (holds (.text field) (Field.mem_all _)) (holds' (.text field) (Field.mem_all _))
    · refine OrAbsent.unique ?_ (holds (.flag field) (Field.mem_all _))
        (holds' (.flag field) (Field.mem_all _))
      exact fun _ _ _ _ => GivesFlag.unique

theorem read_options_eq_ok_iff (tree : Tree) (wellFormed : tree.WellFormed) (options : Options) :
    optionsShape.read {} tree = .ok options ↔ GivesOptions tree options := by
  have names : (Field.all.map optionView).map View.name = Field.names := List.map_map
  rw [lawful_optionsShape.read_eq_ok_iff (by decide) wellFormed, names]
  refine exists_congr fun given => and_congr_right fun _ => ?_
  rw [List.forall_mem_map]
  constructor
  · exact fun holds => ⟨fun field => holds (.text field) (Field.mem_all _),
      fun field => holds (.flag field) (Field.mem_all _)⟩
  · rintro ⟨texts, flags⟩ (field | field) _
    · exact texts field
    · exact flags field

/-! ### Enumerations -/

theorem forall_mem_three {Value : Type} {holds : Value → Prop} {first second third : Value} :
    (∀ value ∈ [first, second, third], holds value) ↔
      holds first ∧ holds second ∧ holds third := by
  rw [List.forall_mem_cons, List.forall_mem_cons, List.forall_mem_singleton]

theorem pairwise_three {Value : Type} {related : Value → Value → Prop}
    {first second third : Value} :
    [first, second, third].Pairwise related ↔
      related first second ∧ related first third ∧ related second third := by
  simp only [List.pairwise_cons, List.forall_mem_cons, List.not_mem_nil, List.Pairwise.nil,
    false_implies, implies_true, and_true, and_assoc]

def enumerationViews : List (View EnumerationFields) :=
  [.ofReader "name".toList readText (fun fields name => { fields with name := some name })
     GivesText none EnumerationFields.name,
   .ofReader "scope".toList readText (fun fields scope => { fields with scope := some scope })
     GivesText none EnumerationFields.scope,
   .ofReader "default".toList readText
     (fun fields default => { fields with default := some default })
     GivesText none EnumerationFields.default]

theorem lawful_enumerationShape : enumerationShape.Lawful {} enumerationViews where
  fields := rfl
  distinct := by decide
  lawful := by
    rw [enumerationViews, forall_mem_three]
    refine ⟨View.lawful_ofReader reads_readText ?_ none, View.lawful_ofReader reads_readText ?_ none,
      View.lawful_ofReader reads_readText ?_ none⟩ <;> exact fun _ _ => rfl
  nothing := by
    rw [enumerationViews, forall_mem_three]
    exact ⟨rfl, rfl, rfl⟩
  apart := by
    rw [enumerationViews, pairwise_three]
    refine ⟨⟨?_, ?_⟩, ⟨?_, ?_⟩, ?_, ?_⟩ <;> exact View.leavesAlone_ofReader fun _ _ => rfl
  unique {part} each first second holds holds' := by
    have same (get : EnumerationFields → Option Text) (name : Text)
        (holds : OrAbsent GivesText none (part name) (get first))
        (holds' : OrAbsent GivesText none (part name) (get second)) : get first = get second :=
      OrAbsent.unique (fun tree found _ _ => reads_readText.unique (each _ tree found)) holds holds'
    rw [enumerationViews, forall_mem_three] at holds holds'
    cases first
    cases second
    rw [EnumerationFields.mk.injEq]
    exact ⟨same EnumerationFields.name _ holds.1 holds'.1,
      same EnumerationFields.scope _ holds.2.1 holds'.2.1,
      same EnumerationFields.default _ holds.2.2 holds'.2.2⟩

/-- An enumeration is read if its fields are, and the default is among them. -/
theorem readEnumeration_eq_ok_iff_fields (tree : Tree) (enumeration : Enumeration) :
    readEnumeration tree = .ok enumeration ↔
      enumerationShape.read {} tree =
        .ok ⟨enumeration.name, enumeration.scope, some enumeration.default⟩ := by
  rw [readEnumeration, bind_eq_ok_iff]
  constructor
  · rintro ⟨⟨name, scope, _ | default⟩, done, finished⟩
    · cases finished
    · rw [← Except.ok.inj finished]
      exact done
  · exact fun done => ⟨_, done, rfl⟩

theorem read_enumeration_eq_ok_iff (tree : Tree) (wellFormed : tree.WellFormed)
    (enumeration : Enumeration) :
    readEnumeration tree = .ok enumeration ↔ GivesEnumeration tree enumeration := by
  have present (part : Option Tree) (default : Text) :
      OrAbsent GivesText none part (some default) ↔
        ∃ tree ∈ part, GivesText tree (some default) := by
    cases part with
    | none => exact ⟨nofun, nofun⟩
    | some tree =>
      refine ⟨fun gives => ⟨tree, rfl, gives⟩, ?_⟩
      rintro ⟨_, ⟨⟩, gives⟩
      exact gives
  rw [readEnumeration_eq_ok_iff_fields,
    lawful_enumerationShape.read_eq_ok_iff (by decide) wellFormed]
  refine exists_congr fun given => and_congr_right fun _ => ?_
  rw [enumerationViews, forall_mem_three, ← present]
  rfl

/-! ### Registers -/

/-- Values that are put under distinct names, none of which is there yet, go behind all others. -/
theorem foldlM_insert_eq_ok_iff {Value : Type} {read : Tree → Except Misfit Value}
    {register whole : Register Value} {entries : Entries} (distinct : (keyTexts entries).Nodup)
    (fresh : ∀ name ∈ keyTexts entries, name ∉ register.entries.map Prod.fst) :
    entries.foldlM (fun register (key, tree) => do
        let value ← read tree
        return Register.insert register key.text value) register = .ok whole ↔
      ∃ added, whole.entries = register.entries ++ added ∧
        List.Forall₂ (fun entry pair => pair.1 = entry.1.text ∧ read entry.2 = .ok pair.2) entries
          added := by
  constructor
  · intro done
    induction entries generalizing register with
    | nil =>
      rw [List.foldlM_nil] at done
      rw [Except.ok.inj done]
      exact ⟨[], (List.append_nil _).symm, .nil⟩
    | cons entry rest inductionHypothesis =>
      obtain ⟨key, tree⟩ := entry
      obtain ⟨apart, distinctRest⟩ := List.nodup_cons.mp distinct
      obtain ⟨freshKey, freshRest⟩ := List.forall_mem_cons.mp fresh
      rw [List.foldlM_cons] at done
      obtain ⟨between, inserted, done⟩ := bind_eq_ok_iff.mp done
      obtain ⟨value, isValue, same⟩ := bind_eq_ok_iff.mp inserted
      have grown : between.entries = register.entries ++ [(key.text, value)] := by
        rw [← Except.ok.inj same]
        exact Register.insertEntry_of_notMem freshKey value
      have freshBehind : ∀ name ∈ keyTexts rest, name ∉ between.entries.map Prod.fst := by
        intro name member met
        rw [grown, List.map_append, List.mem_append] at met
        rcases met with before | isKey
        · exact freshRest name member before
        · rw [show name = key.text from List.mem_singleton.mp isKey] at member
          exact apart member
      obtain ⟨added, split, holds⟩ := inductionHypothesis distinctRest freshBehind done
      refine ⟨(key.text, value) :: added, ?_, .cons ⟨rfl, isValue⟩ holds⟩
      rw [split, grown, List.append_assoc, List.singleton_append]
  · rintro ⟨added, split, holds⟩
    refine foldlM_insert (List.Forall₂.flip (holds.imp ?_)) split
    exact fun _ _ here => ⟨here.1.symm, here.2⟩

theorem readRegister_eq_ok_iff {Value : Type} {read : Tree → Except Misfit Value}
    {gives : Tree → Value → Prop}
    (reads : ∀ tree, tree.WellFormed → ∀ value, read tree = .ok value ↔ gives tree value)
    (noText : ∀ span text value, read (.text span text) ≠ .ok value) (tree : Tree)
    (wellFormed : tree.WellFormed) (register : Register Value) :
    readRegister read tree = .ok register ↔ GivesRegister gives tree register := by
  have notTable (other : ∀ span origin entries, tree ≠ .table span origin entries)
      (fails : readRegister read tree ≠ .ok register) :
      readRegister read tree = .ok register ↔ GivesRegister gives tree register :=
    ⟨fun done => absurd done fails, fun ⟨span, origin, entries, same, _⟩ =>
      absurd same (other span origin entries)⟩
  cases tree with
  | text span text => exact notTable (fun _ _ _ => nofun) nofun
  | array span ofTables elements => exact notTable (fun _ _ _ => nofun) nofun
  | plain span value =>
    refine notTable (fun _ _ _ => nofun) ?_
    cases value with
    | moment written =>
      -- taken for a table, a moment has a text for its only value
      intro done
      obtain ⟨between, inserted, _⟩ := bind_eq_ok_iff.mp done
      obtain ⟨value, isValue, _⟩ := bind_eq_ok_iff.mp inserted
      exact noText span written value isValue
    | boolean value => exact nofun
    | integer value => exact nofun
    | real value => exact nofun
    | valueless => exact nofun
  | table span origin entries =>
    have wellFormedEntries := Tree.wellFormed_table_iff.mp wellFormed
    refine (foldlM_insert_eq_ok_iff wellFormedEntries.distinct fun _ _ => List.not_mem_nil).trans ?_
    constructor
    · rintro ⟨added, split, holds⟩
      refine ⟨span, origin, entries, rfl, ?_⟩
      rw [show register.entries = added from split]
      refine ((List.forall₂_and_left entries _).mpr ⟨wellFormedEntries.each, holds⟩).imp ?_
      exact fun entry pair both =>
        ⟨both.2.1, (reads entry.2 both.1 pair.2).mp both.2.2⟩
    · rintro ⟨_, _, _, ⟨⟩, holds⟩
      refine ⟨register.entries, rfl, ?_⟩
      refine ((List.forall₂_and_left entries _).mpr ⟨wellFormedEntries.each, holds⟩).imp ?_
      exact fun entry pair both =>
        ⟨both.2.1, (reads entry.2 both.1 pair.2).mpr both.2.2⟩

/-! ### Catalogs -/

def catalogViews : List (View Declarations) :=
  [.ofReader "settings".toList (settingsShape.read none)
     (fun declarations separator => { declarations with separator })
     GivesSettings none Declarations.separator,
   .ofReader "scalars".toList (readRegister (optionsShape.read {}))
     (fun declarations scalars => { declarations with scalars })
     (GivesRegister GivesOptions) .empty Declarations.scalars,
   .ofReader "enums".toList (readRegister readEnumeration)
     (fun declarations enums => { declarations with enums })
     (GivesRegister GivesEnumeration) .empty Declarations.enums]

theorem reads_settings : Reads (settingsShape.read none) id GivesSettings :=
  reads_of_eq_ok_iff read_settings_eq_ok_iff

theorem reads_scalars :
    Reads (readRegister (optionsShape.read {})) id (GivesRegister GivesOptions) :=
  reads_of_eq_ok_iff (readRegister_eq_ok_iff read_options_eq_ok_iff fun _ _ _ => nofun)

theorem reads_enums : Reads (readRegister readEnumeration) id (GivesRegister GivesEnumeration) :=
  reads_of_eq_ok_iff (readRegister_eq_ok_iff read_enumeration_eq_ok_iff fun _ _ _ => nofun)

theorem lawful_catalogShape : catalogShape.Lawful ⟨none, .empty, .empty⟩ catalogViews where
  fields := rfl
  distinct := by decide
  lawful := by
    rw [catalogViews, forall_mem_three]
    refine ⟨View.lawful_ofReader reads_settings ?_ none, View.lawful_ofReader reads_scalars ?_ .empty,
      View.lawful_ofReader reads_enums ?_ .empty⟩ <;> exact fun _ _ => rfl
  nothing := by
    rw [catalogViews, forall_mem_three]
    exact ⟨rfl, rfl, rfl⟩
  apart := by
    rw [catalogViews, pairwise_three]
    refine ⟨⟨?_, ?_⟩, ⟨?_, ?_⟩, ?_, ?_⟩ <;> exact View.leavesAlone_ofReader fun _ _ => rfl
  unique {part} each first second holds holds' := by
    rw [catalogViews, forall_mem_three] at holds holds'
    cases first
    cases second
    rw [Declarations.mk.injEq]
    exact ⟨OrAbsent.unique (fun tree found _ _ => reads_settings.unique (each _ tree found))
        holds.1 holds'.1,
      OrAbsent.unique (fun tree found _ _ => reads_scalars.unique (each _ tree found))
        holds.2.1 holds'.2.1,
      OrAbsent.unique (fun tree found _ _ => reads_enums.unique (each _ tree found))
        holds.2.2 holds'.2.2⟩

/-- The declarations that are read off a document are those that it makes. -/
theorem ofEntries_eq_ok_iff {entries : Entries} (wellFormed : Toml.WellFormed entries)
    (declarations : Declarations) :
    Declarations.ofEntries entries = .ok declarations ↔ Declares entries declarations := by
  rw [Declarations.ofEntries, lawful_catalogShape.assignEntries_eq_ok_iff wellFormed, catalogViews,
    forall_mem_three]
  constructor
  · exact fun both => ⟨both.1, both.2.1, both.2.2.1, both.2.2.2⟩
  · exact fun declares => ⟨declares.known, declares.settings, declares.scalars, declares.enums⟩

end Scaffold.Catalog
