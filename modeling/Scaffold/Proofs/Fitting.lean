/-
This file gives the schema of a catalog as a condition on documents, and proves that it
is enforced exactly. A document that fits makes declarations, and only they are read
off it. Any other document is turned away as one that cannot be parsed, whatever
stands at the place that does not fit.
-/

import Scaffold.Proofs.Declaring

namespace Scaffold.Catalog

open Scalar (Field FlagField Options TextField)
open Toml (Entries Origin Span Tree keyTexts)

/-! ### The schema -/

/-- The value is a text. -/
def IsText (tree : Tree) : Prop :=
  ∃ span text, tree = .text span text

/-- The value is a truth value. -/
def IsFlag (tree : Tree) : Prop :=
  ∃ span flag, tree = .plain span (.boolean flag)

/-- The value fits the settings: it has a text for the separator, or nothing. -/
def FitsSettings (tree : Tree) : Prop :=
  ∃ given, Gives ["scope_separator".toList] tree given ∧
    ∀ tree ∈ valueAt given "scope_separator".toList, IsText tree

/-- The value fits the options of a scalar type: four of them are truth values, the others texts. -/
def FitsOptions (tree : Tree) : Prop :=
  ∃ given, Gives Field.names tree given ∧
    (∀ field, ∀ tree ∈ valueAt given (Field.text field).name, IsText tree) ∧
    ∀ field, ∀ tree ∈ valueAt given (Field.flag field).name, IsFlag tree

/-- The value fits an enumeration: it has texts only, and one of them is the default. -/
def FitsEnumeration (tree : Tree) : Prop :=
  ∃ given, Gives ["name".toList, "scope".toList, "default".toList] tree given ∧
    (∀ tree ∈ valueAt given "name".toList, IsText tree) ∧
    (∀ tree ∈ valueAt given "scope".toList, IsText tree) ∧
    ∃ tree ∈ valueAt given "default".toList, IsText tree

/-- The value is a table all of whose values fit. -/
def FitsTable (fits : Tree → Prop) (tree : Tree) : Prop :=
  ∃ span origin entries, tree = .table span origin entries ∧ ∀ entry ∈ entries, fits entry.2

/-- The document fits the schema of a catalog. -/
structure Fits (entries : Entries) : Prop where
  known : ∀ name ∈ keyTexts entries,
    name ∈ ["settings".toList, "scalars".toList, "enums".toList]
  settings : ∀ tree ∈ valueAt entries "settings".toList, FitsSettings tree
  scalars : ∀ tree ∈ valueAt entries "scalars".toList, FitsTable FitsOptions tree
  enums : ∀ tree ∈ valueAt entries "enums".toList, FitsTable FitsEnumeration tree

/-! ### Values that give something -/

theorem exists_orAbsent_iff {Value : Type} {gives : Tree → Value → Prop} {fits : Tree → Prop}
    {part : Option Tree} (absent : Value)
    (same : ∀ tree ∈ part, (∃ value, gives tree value) ↔ fits tree) :
    (∃ value, OrAbsent gives absent part value) ↔ ∀ tree ∈ part, fits tree := by
  cases part with
  | none => exact iff_of_true ⟨absent, rfl⟩ fun _ none => nomatch none
  | some tree =>
    refine (same tree rfl).trans ⟨fun holds other isTree => ?_, fun all => all tree rfl⟩
    exact Option.some_inj.mp isTree ▸ holds

theorem exists_text_iff (part : Option Tree) :
    (∃ value, OrAbsent GivesText none part value) ↔ ∀ tree ∈ part, IsText tree := by
  refine exists_orAbsent_iff none fun tree _ => ⟨?_, ?_⟩
  · rintro ⟨_, span, text, same, _⟩
    exact ⟨span, text, same⟩
  · rintro ⟨span, text, same⟩
    exact ⟨some text, span, text, same, rfl⟩

theorem exists_flag_iff (part : Option Tree) :
    (∃ value, OrAbsent GivesFlag none part value) ↔ ∀ tree ∈ part, IsFlag tree := by
  refine exists_orAbsent_iff none fun tree _ => ⟨?_, ?_⟩
  · rintro ⟨_, span, flag, same, _⟩
    exact ⟨span, flag, same⟩
  · rintro ⟨span, flag, same⟩
    exact ⟨some flag, span, flag, same, rfl⟩

theorem exists_givesSettings_iff (tree : Tree) :
    (∃ separator, GivesSettings tree separator) ↔ FitsSettings tree := by
  simp only [GivesSettings, FitsSettings]
  rw [exists_comm]
  refine exists_congr fun given => ?_
  rw [exists_and_left, exists_text_iff]

/-- The options that have these texts and these truth values. -/
def optionsOf (texts : TextField → Option Text) (flags : FlagField → Option Bool) : Options where
  primaryType := texts .primaryType
  isEnum := flags .isEnum
  passedByReference := flags .passedByReference
  secondaryType := texts .secondaryType
  secondaryReferenceType := texts .secondaryReferenceType
  serializedType := texts .serializedType
  hasSerializerSetter := flags .hasSerializerSetter
  scopedPrimaryType := texts .scopedPrimaryType
  secondaryDefault := texts .secondaryDefault
  primaryDefault := texts .primaryDefault
  omitIfDefault := flags .omitIfDefault

section OptionsOf

variable (texts : TextField → Option Text) (flags : FlagField → Option Bool)

theorem text?_optionsOf (field : TextField) : (optionsOf texts flags).text? field = texts field := by
  cases field <;> rfl

theorem flag?_optionsOf (field : FlagField) : (optionsOf texts flags).flag? field = flags field := by
  cases field <;> rfl

end OptionsOf

theorem exists_givesOptions_iff (tree : Tree) :
    (∃ options, GivesOptions tree options) ↔ FitsOptions tree := by
  constructor
  · rintro ⟨options, given, gives, texts, flags⟩
    exact ⟨given, gives, fun field => (exists_text_iff _).mp ⟨_, texts field⟩,
      fun field => (exists_flag_iff _).mp ⟨_, flags field⟩⟩
  · rintro ⟨given, gives, texts, flags⟩
    have hasText (field : TextField) := (exists_text_iff _).mpr (texts field)
    have hasFlag (field : FlagField) := (exists_flag_iff _).mpr (flags field)
    choose texts holds using hasText
    choose flags holds' using hasFlag
    refine ⟨optionsOf texts flags, given, gives, fun field => ?_, fun field => ?_⟩
    · rw [text?_optionsOf]
      exact holds field
    · rw [flag?_optionsOf]
      exact holds' field

theorem exists_givesEnumeration_iff (tree : Tree) :
    (∃ enumeration, GivesEnumeration tree enumeration) ↔ FitsEnumeration tree := by
  constructor
  · rintro ⟨enumeration, given, gives, name, scope, default, isDefault, span, text, same, _⟩
    exact ⟨given, gives, (exists_text_iff _).mp ⟨_, name⟩, (exists_text_iff _).mp ⟨_, scope⟩,
      default, isDefault, span, text, same⟩
  · rintro ⟨given, gives, names, scopes, default, isDefault, span, text, same⟩
    obtain ⟨name, holdsName⟩ := (exists_text_iff _).mpr names
    obtain ⟨scope, holdsScope⟩ := (exists_text_iff _).mpr scopes
    exact ⟨⟨name, scope, text⟩, given, gives, holdsName, holdsScope, default, isDefault, span, text,
      same, rfl⟩

/-- Entries whose values all give something give it under their keys. -/
theorem exists_given_pairs {Value : Type} {gives : Tree → Value → Prop} {entries : Entries}
    (each : ∀ entry ∈ entries, ∃ value, gives entry.2 value) :
    ∃ pairs : List (Text × Value), pairs.map Prod.fst = keyTexts entries ∧
      List.Forall₂ (fun entry pair => pair.1 = entry.1.text ∧ gives entry.2 pair.2) entries
        pairs := by
  induction entries with
  | nil => exact ⟨[], rfl, .nil⟩
  | cons entry rest inductionHypothesis =>
    obtain ⟨⟨value, here⟩, eachRest⟩ := List.forall_mem_cons.mp each
    obtain ⟨pairs, names, holds⟩ := inductionHypothesis eachRest
    exact ⟨(entry.1.text, value) :: pairs, congrArg (entry.1.text :: ·) names,
      .cons ⟨rfl, here⟩ holds⟩

theorem exists_givesRegister_iff {Value : Type} {gives : Tree → Value → Prop} {fits : Tree → Prop}
    (same : ∀ tree, (∃ value, gives tree value) ↔ fits tree) {tree : Tree}
    (wellFormed : tree.WellFormed) :
    (∃ register, GivesRegister gives tree register) ↔ FitsTable fits tree := by
  constructor
  · rintro ⟨register, span, origin, entries, isTable, holds⟩
    refine ⟨span, origin, entries, isTable, ?_⟩
    clear isTable
    generalize register.entries = pairs at holds
    induction holds with
    | nil => exact List.forall_mem_nil _
    | cons here _ inductionHypothesis =>
      exact List.forall_mem_cons.mpr ⟨(same _).mp ⟨_, here.2⟩, inductionHypothesis⟩
  · rintro ⟨span, origin, entries, rfl, each⟩
    obtain ⟨pairs, names, holds⟩ :=
      exists_given_pairs fun entry member => (same entry.2).mpr (each entry member)
    have distinct : (pairs.map Prod.fst).Nodup :=
      names ▸ (Tree.wellFormed_table_iff.mp wellFormed).distinct
    exact ⟨⟨pairs, distinct⟩, span, origin, entries, rfl, holds⟩

/-- A document makes declarations exactly if it fits the schema. -/
theorem exists_declares_iff {entries : Entries} (wellFormed : Toml.WellFormed entries) :
    (∃ declarations, Declares entries declarations) ↔ Fits entries := by
  have value (name : Text) (tree : Tree) (found : tree ∈ valueAt entries name) :
      tree.WellFormed := by
    obtain ⟨key, _, member⟩ := mem_of_valueAt found
    exact wellFormed.each _ member
  have settings (part : Option Tree) :
      (∃ separator, OrAbsent GivesSettings none part separator) ↔
        ∀ tree ∈ part, FitsSettings tree :=
    exists_orAbsent_iff none fun tree _ => exists_givesSettings_iff tree
  have tables {Value : Type} {gives : Tree → Value → Prop} {fits : Tree → Prop}
      (same : ∀ tree, (∃ value, gives tree value) ↔ fits tree) (name : Text) :
      (∃ register, OrAbsent (GivesRegister gives) .empty (valueAt entries name) register) ↔
        ∀ tree ∈ valueAt entries name, FitsTable fits tree :=
    exists_orAbsent_iff .empty fun tree found =>
      exists_givesRegister_iff same (value name tree found)
  have scalars := tables exists_givesOptions_iff "scalars".toList
  have enums := tables exists_givesEnumeration_iff "enums".toList
  constructor
  · rintro ⟨declarations, known, givesSettings, givesScalars, givesEnums⟩
    exact ⟨known, (settings _).mp ⟨_, givesSettings⟩, scalars.mp ⟨_, givesScalars⟩,
      enums.mp ⟨_, givesEnums⟩⟩
  · rintro ⟨known, fitsSettings, fitsScalars, fitsEnums⟩
    obtain ⟨separator, givesSettings⟩ := (settings _).mpr fitsSettings
    obtain ⟨options, givesScalars⟩ := scalars.mpr fitsScalars
    obtain ⟨enumerations, givesEnums⟩ := enums.mpr fitsEnums
    exact ⟨⟨separator, options, enumerations⟩, known, givesSettings, givesScalars, givesEnums⟩

/-! ### Sources -/

/-- A source whose declarations cannot be read is turned away at once, as one that cannot be
parsed. -/
theorem exists_parseError (source : Source)
    (none : ∀ declarations, source.declarations ≠ .ok declarations) :
    ∃ error, source.read = ([], .error ⟨source, error⟩) ∧
      error.code = "treegen::parse_error".toList := by
  have turnedAway (error : Error) (outcome : source.declarations = .error error) :
      source.read = ([], .error ⟨source, error⟩) := by
    rw [Source.read, outcome]
  cases read : Toml.read? source.text with
  | none => exact ⟨.malformed, turnedAway _ (by rw [Source.declarations, read]), rfl⟩
  | some entries =>
    cases outcome : Declarations.ofEntries entries with
    | ok declarations =>
      have declared := (source.declarations_eq_ok_iff declarations).mpr ⟨entries, read, outcome⟩
      exact absurd declared (none declarations)
    | error misfit =>
      have failed : source.declarations = .error
          (if Toml.entriesValued entries then .unfit misfit.fault (source.region misfit.span)
            else .malformed) := by
        rw [Source.declarations, read]
        simp only [outcome]
        rfl
      refine ⟨_, turnedAway _ failed, ?_⟩
      split <;> rfl

/-- The schema of a catalog is enforced exactly. Of the documents in which no table has a key twice,
and no other document is ever read, those that fit are read, as what they declare. All others, and
all texts that are no document, are turned away as ones that cannot be parsed. -/
theorem schema_exact :
    (∀ entries, Toml.WellFormed entries →
      ((∃ declarations, Declarations.ofEntries entries = .ok declarations) ↔ Fits entries) ∧
        ∀ declarations, Declarations.ofEntries entries = .ok declarations ↔
          Declares entries declarations) ∧
      ∀ source : Source,
        (∀ entries, Toml.read? source.text = some entries → Toml.WellFormed entries ∧
          (Fits entries → ∃ declarations, source.declarations = .ok declarations ∧
            Declares entries declarations)) ∧
        ((¬ ∃ entries, Toml.read? source.text = some entries ∧ Fits entries) →
          ∃ error, source.read = ([], .error ⟨source, error⟩) ∧
            error.code = "treegen::parse_error".toList) := by
  refine ⟨fun entries wellFormed => ⟨?_, ofEntries_eq_ok_iff wellFormed⟩, fun source => ⟨?_, ?_⟩⟩
  · simp only [ofEntries_eq_ok_iff wellFormed]
    exact exists_declares_iff wellFormed
  · intro entries read
    have wellFormed := Toml.wellFormed_of_read? read
    refine ⟨wellFormed, fun fits => ?_⟩
    obtain ⟨declarations, declares⟩ := (exists_declares_iff wellFormed).mpr fits
    have declared := (ofEntries_eq_ok_iff wellFormed declarations).mpr declares
    exact ⟨declarations, (source.declarations_eq_ok_iff _).mpr ⟨entries, read, declared⟩, declares⟩
  · refine fun unfit => exists_parseError source fun declarations declared => unfit ?_
    obtain ⟨entries, read, declared⟩ := (source.declarations_eq_ok_iff declarations).mp declared
    have wellFormed := Toml.wellFormed_of_read? read
    exact ⟨entries, read, (exists_declares_iff wellFormed).mp
      ⟨declarations, (ofEntries_eq_ok_iff wellFormed declarations).mp declared⟩⟩

/-- Records that all come as arrays, one of them with more elements than fields, and a document in
which the name of an option is misspelt. -/
theorem schema_exact_arrays :
    let options : Options :=
      { primaryType := some ['x'], isEnum := some false, passedByReference := some true,
        secondaryType := some [], secondaryReferenceType := some [], serializedType := some ['i'],
        hasSerializerSetter := some false, scopedPrimaryType := some [],
        secondaryDefault := some ['0'], primaryDefault := some [], omitIfDefault := some true }
    let declarations : Declarations :=
      ⟨some ['/'], ⟨[(['a'], options)], by decide⟩,
        ⟨[(['E'], ⟨some ['N'], some ['S'], []⟩)], by decide⟩⟩
    let source : Source :=
      ⟨("settings=['/']\nenums.E=['N','S','',1]\n" ++
        "scalars.a=['x',false,true,'','','i',false,'','0','',true]").toList, []⟩
    let misspelt : Source := ⟨"[scalars.b]\nprimary_typ='y'".toList, []⟩
    (∃ entries, Toml.read? source.text = some entries ∧ Fits entries ∧
      Declares entries declarations) ∧
      ∃ entries, Toml.read? misspelt.text = some entries ∧ ¬ Fits entries ∧
        ∃ error, misspelt.read = ([], .error ⟨misspelt, error⟩) ∧
          error.code = "treegen::parse_error".toList := by
  intro options declarations source misspelt
  obtain ⟨documents, sources⟩ := schema_exact
  constructor
  · have declared : source.declarations = .ok declarations := by with_unfolding_all rfl
    obtain ⟨entries, read, made⟩ := (source.declarations_eq_ok_iff _).mp declared
    obtain ⟨accepts, declares⟩ := documents entries ((sources source).1 entries read).1
    exact ⟨entries, read, accepts.mp ⟨_, made⟩, (declares _).mp made⟩
  · have document : (Toml.read? misspelt.text).isSome = true := by with_unfolding_all rfl
    have failed : misspelt.declarations.toBool = false := by with_unfolding_all rfl
    obtain ⟨entries, read⟩ := Option.isSome_iff_exists.mp document
    have unfit : ¬ Fits entries := by
      intro fits
      obtain ⟨_, declared, _⟩ := ((sources misspelt).1 entries read).2 fits
      rw [declared] at failed
      cases failed
    refine ⟨entries, read, unfit, (sources misspelt).2 ?_⟩
    rintro ⟨other, read', fits⟩
    exact unfit (Option.some_inj.mp (read.symm.trans read') ▸ fits)

end Scaffold.Catalog
