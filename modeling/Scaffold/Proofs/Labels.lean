/-
This file proves that labels are to the point. Wherever the search for the name of an
entry leads, the name stands there, on whole characters, and a label marks it from
its first byte to its last.
-/

import Scaffold.Proofs.FirstFault
import Scaffold.Proofs.LineSearch

namespace Scaffold.Catalog

/-! ### Stretches of a source -/

/-- The region lies inside a source and on whole characters of it, and its bytes are those of a
name. -/
structure Region.Covers (region : Region) (source name : Text) : Prop where
  inside : region.offset + region.length ≤ (String.ofList source).utf8ByteSize
  start : String.Pos.Raw.IsValid (String.ofList source) ⟨region.offset⟩
  stop : String.Pos.Raw.IsValid (String.ofList source) ⟨region.offset + region.length⟩
  bytes : (String.ofList source).toByteArray.extract region.offset (region.offset + region.length) =
    (String.ofList name).toByteArray

theorem utf8ByteSize_ofList (text : Text) :
    (String.ofList text).utf8ByteSize = Text.byteLength text :=
  Text.size_utf8Encode text

/-- Behind a front part is a place between characters. -/
theorem isValid_byteLength (front back : Text) :
    String.Pos.Raw.IsValid (String.ofList (front ++ back)) ⟨Text.byteLength front⟩ := by
  rw [String.Pos.Raw.isValid_iff_exists_append]
  refine ⟨.ofList front, .ofList back, String.ofList_append, ?_⟩
  rw [← utf8ByteSize_ofList]
  rfl

theorem covers_of_split {source name before after : Text}
    (split : source = before ++ name ++ after) :
    Region.Covers ⟨Text.byteLength before, Text.byteLength name⟩ source name := by
  have stop : Text.byteLength before + Text.byteLength name = Text.byteLength (before ++ name) :=
    (Text.byteLength_append before name).symm
  subst split
  refine ⟨?_, ?_, ?_, ?_⟩
  · show Text.byteLength before + Text.byteLength name ≤ _
    rw [stop, utf8ByteSize_ofList, Text.byteLength_append (before ++ name)]
    exact Nat.le_add_right _ _
  · rw [List.append_assoc]
    exact isValid_byteLength before (name ++ after)
  · show String.Pos.Raw.IsValid _ ⟨Text.byteLength before + Text.byteLength name⟩
    rw [stop]
    exact isValid_byteLength (before ++ name) after
  · have stopSize : Text.byteLength before + Text.byteLength name =
        (before.utf8Encode ++ name.utf8Encode).size := by
      rw [ByteArray.size_append, Text.size_utf8Encode, Text.size_utf8Encode]
    simp only [String.toByteArray_ofList, List.utf8Encode_append]
    rw [stopSize, ByteArray.extract_append_size_left]
    exact ByteArray.extract_append_eq_right (Text.size_utf8Encode before).symm
      ByteArray.size_append

/-! ### Where the search leads -/

/-- The texts that may stand around a name in a header, in the order in which they are tried. -/
def enclosures : List Text :=
  [[], ['"'], ['\'']]

/-- The headers come first, and the lines of the table after them. -/
theorem locate?_eq (source table name : Text) :
    locate? source table name =
      ((enclosures.findSome? (locateHeader? source table name)).or
        (locateLine? table name false 0 (Text.wholeLines source))).map
          (⟨·, Text.byteLength name⟩) := by
  refine congrArg (Option.map _) ?_
  simp only [enclosures, List.findSome?_cons, List.findSome?_nil, Option.orElse_eq_orElse,
    Option.orElse_eq_or]
  cases locateHeader? source table name [] <;>
    cases locateHeader? source table name ['"'] <;>
    cases locateHeader? source table name ['\''] <;> rfl

theorem exists_front_of_locateHeader? {source table name around : Text} {offset : Nat}
    (found : locateHeader? source table name around = some offset) :
    ∃ front after, source = front ++ ('[' :: table ++ '.' :: around) ++ name ++ after ∧
      offset = Text.byteLength (front ++ ('[' :: table ++ '.' :: around)) := by
  obtain ⟨start, foundHeader, rfl⟩ := Option.map_eq_some_iff.mp found
  obtain ⟨front, after, split, rfl⟩ := Text.exists_split_of_find? foundHeader
  refine ⟨front, around ++ [']'] ++ after, ?_, (Text.byteLength_append _ _).symm⟩
  rw [split]
  simp only [List.append_assoc, List.cons_append]

/-- What stands in front of a name to which the search for it in a table leads: the opening of its
header, or the lines of the source up to one in the table and the white space at the start of that
line. -/
inductive LeadsUp (source table name : Text) : Text → Prop
  | header (front around : Text) (tried : around ∈ enclosures) :
      LeadsUp source table name (front ++ ('[' :: table ++ '.' :: around))
  | line (earlier : List Text) (line behind : Text) (later : List Text)
      (split : Text.wholeLines source = earlier ++ line :: later)
      (inside : inTableBehind table false earlier = true)
      (shape : line = line.takeWhile Text.isBlank ++ name ++ behind) :
      LeadsUp source table name (earlier.flatten ++ line.takeWhile Text.isBlank)

theorem exists_leadsUp_of_locate? {source table name : Text} {region : Region}
    (found : locate? source table name = some region) :
    ∃ before after, source = before ++ name ++ after ∧
      region = ⟨Text.byteLength before, Text.byteLength name⟩ ∧
      LeadsUp source table name before := by
  rw [locate?_eq] at found
  obtain ⟨offset, foundName, rfl⟩ := Option.map_eq_some_iff.mp found
  rcases Option.or_eq_some_iff.mp foundName with inHeader | ⟨_, inLine⟩
  · obtain ⟨around, tried, inHeader⟩ := List.exists_of_findSome?_eq_some inHeader
    obtain ⟨front, after, split, rfl⟩ := exists_front_of_locateHeader? inHeader
    exact ⟨_, after, split, rfl, .header front around tried⟩
  · obtain ⟨earlier, line, ⟨later, split⟩, ⟨inside, assigned⟩, _, rfl⟩ :=
      locateLine?_eq_some_iff.mp inLine
    obtain ⟨gap, value, _, shape⟩ := assigned.exists_split
    rw [List.append_assoc, List.singleton_append] at split
    refine ⟨_, gap ++ '=' :: value ++ later.flatten, ?_, by rw [Nat.zero_add],
      .line earlier line _ later split.symm inside shape⟩
    rw [← Text.flatten_wholeLines source, ← split, List.flatten_append, List.flatten_cons]
    nth_rewrite 1 [shape]
    simp only [List.append_assoc]

theorem exists_split_of_locate? {source table name : Text} {region : Region}
    (found : locate? source table name = some region) :
    ∃ before after, source = before ++ name ++ after ∧
      region = ⟨Text.byteLength before, Text.byteLength name⟩ := by
  obtain ⟨before, after, split, place, _⟩ := exists_leadsUp_of_locate? found
  exact ⟨before, after, split, place⟩

/-! ### Errors about an entry -/

/-- The name of the entry that an error is about, if it is about one. -/
def Error.subject? : Error → Option Text
  | .malformed | .unfit _ _ => none
  | .missingPrimaryType name _ _ | .duplicateScalar name _ _ | .invalidName name _ _ => some name

theorem Source.subject?_entryError (source : Source) (entry : Entry) (fault : EntryFault) :
    (source.entryError entry fault).subject? = some entry.name := by
  cases fault <;> rfl

theorem Source.subject?_of_undeclared {source : Source} {error : Error}
    (undeclared : source.declarations = .error error) : error.subject? = none := by
  rw [declarations] at undeclared
  split at undeclared
  · cases undeclared
    rfl
  · next entries _ =>
    cases fits : Declarations.ofEntries entries with
    | ok declarations =>
      rw [fits] at undeclared
      cases undeclared
    | error misfit =>
      rw [fits] at undeclared
      rw [← Except.error.inj undeclared]
      split <;> rfl

/-- An error about an entry comes from the fault at which the assembly has stopped. -/
theorem exists_fault_of_subject? {source : Source} {diagnostic : Diagnostic} {name : Text}
    (rejected : source.read.2 = .error diagnostic)
    (about : diagnostic.error.subject? = some name) :
    ∃ (declarations : Declarations) (events : List Event) (entry : Entry) (fault : EntryFault),
      source.declarations = .ok declarations ∧
      Catalog.assemble .empty declarations.entries = (events, .error (entry, fault)) ∧
      entry.name = name ∧ diagnostic = ⟨source, source.entryError entry fault⟩ := by
  cases declared : source.declarations with
  | error error =>
    rw [Source.read, declared] at rejected
    rw [← Except.error.inj rejected, Source.subject?_of_undeclared declared] at about
    cases about
  | ok declarations =>
    rw [read_of_declared declared, Source.assemble] at rejected
    split at rejected
    · cases rejected
    · next events entry fault stopped =>
      have same : diagnostic = ⟨source, source.entryError entry fault⟩ :=
        (Except.error.inj rejected).symm
      rw [same, Source.subject?_entryError] at about
      exact ⟨declarations, events, entry, fault, rfl, stopped, Option.some.inj about, same⟩

/-- What the labels of a fault say, and the tables in which the search for the places of the labels
looks for the entry. -/
def EntryFault.captions (entry : Entry) : EntryFault → List (String × Table)
  | .invalidName _ => [("invalid name", entry.table)]
  | .duplicate => [("first declared here", .scalars), ("declared again here", .enums)]
  | .unbuildable _ => [("declared here", entry.table)]

theorem Source.labels_entryError (source : Source) (entry : Entry) (fault : EntryFault) :
    (source.entryError entry fault).labels = (fault.captions entry).flatMap fun (text, table) =>
      labelAt text (source.locate? table entry.name) := by
  cases fault <;> simp only [entryError, Error.labels, EntryFault.captions, List.flatMap_cons,
    List.flatMap_nil, List.append_nil]

theorem mem_labelAt_iff {text : String} {place : Option Region} {label : Label} :
    label ∈ labelAt text place ↔ label.text = text.toList ∧ place = some label.place := by
  cases place with
  | none => exact ⟨fun member => absurd member List.not_mem_nil, fun both => by cases both.2⟩
  | some region =>
    refine List.mem_singleton.trans ⟨?_, fun both => ?_⟩
    · rintro rfl
      exact ⟨rfl, rfl⟩
    · rw [← both.1, Option.some.inj both.2]

/-- A label of an error about an entry covers the entry's name. So does every region to which the
search for any name leads, whatever the texts are. -/
theorem labels_cover_names :
    (∀ (source : Source) (diagnostic : Diagnostic) (name : Text),
      source.read.2 = .error diagnostic → diagnostic.error.subject? = some name →
      diagnostic.source = source ∧
      ∀ label ∈ diagnostic.error.labels, label.place.Covers source.text name) ∧
    ∀ (text table name : Text) (region : Region),
      locate? text table name = some region → region.Covers text name := by
  have covers (text table name : Text) (region : Region)
      (found : locate? text table name = some region) : region.Covers text name := by
    obtain ⟨before, after, split, rfl⟩ := exists_split_of_locate? found
    exact covers_of_split split
  refine ⟨fun source diagnostic name rejected about => ?_, covers⟩
  obtain ⟨_, _, entry, fault, _, _, rfl, rfl⟩ := exists_fault_of_subject? rejected about
  refine ⟨rfl, fun label member => ?_⟩
  rw [source.labels_entryError, List.mem_flatMap] at member
  obtain ⟨⟨_, table⟩, _, marked⟩ := member
  exact covers source.text table.name entry.name label.place (mem_labelAt_iff.mp marked).2

/-- A quoted name behind characters of several bytes, and a line that is indented by such a
character. -/
theorem labels_cover_names_wide :
    let source : Source := ⟨"# ü\n[scalars.\"ä b\"]".toList, []⟩
    let diagnostic : Diagnostic :=
      ⟨source, .invalidName "ä b".toList NameFault.badStart.message (some ⟨15, 4⟩)⟩
    let text : Text := "[t]\n\u3000x=1".toList
    (source.read.2 = .error diagnostic ∧
      (⟨15, 4⟩ : Region).Covers source.text "ä b".toList) ∧
    locate? text ['t'] ['x'] = some ⟨7, 1⟩ ∧ (⟨7, 1⟩ : Region).Covers text ['x'] := by
  intro source diagnostic text
  have rejected : source.read.2 = .error diagnostic := by with_unfolding_all rfl
  have found : locate? text ['t'] ['x'] = some ⟨7, 1⟩ := by decide +kernel
  obtain ⟨_, covered⟩ := labels_cover_names.1 source diagnostic _ rejected rfl
  exact ⟨⟨rejected, covered ⟨_, ⟨15, 4⟩⟩ List.mem_cons_self⟩, found,
    labels_cover_names.2 text ['t'] ['x'] _ found⟩

end Scaffold.Catalog
