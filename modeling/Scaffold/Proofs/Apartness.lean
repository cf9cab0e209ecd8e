/-
This file proves that the two labels of a key that is in both tables never overlap.

In front of a name to which a search leads stands a dot, a quote, white space or
nothing. None of these can stand in a name, so that no such place lies inside the name
at another one: two places are the same, or the names there are apart. They cannot be
the same either, because a header spells one table only and a line lies in one at most.
-/

import Scaffold.Proofs.Labels

namespace Scaffold.Catalog

/-- Two stretches of a text have no byte in common. -/
def Region.Apart (first second : Region) : Prop :=
  first.offset + first.length ≤ second.offset ∨ second.offset + second.length ≤ first.offset

instance (first second : Region) : Decidable (first.Apart second) :=
  inferInstanceAs (Decidable (_ ∨ _))

/-! ### Places of a name -/

/-- No name goes on behind the text: its last character, if it has one, cannot stand in a name. -/
def Edge (before : Text) : Prop :=
  ∀ c, before.getLast? = some c → isNameChar c = false

/-- A place behind an edge is not inside a name that starts earlier. -/
theorem byteLength_le_of_edge {before middle name after after' : Text} (nonempty : middle ≠ [])
    (edge : Edge (before ++ middle)) (word : ∀ c ∈ name, isNameChar c = true)
    (same : name ++ after = middle ++ after') :
    Text.byteLength before + Text.byteLength name ≤ Text.byteLength (before ++ middle) := by
  rw [Text.byteLength_append]
  refine Nat.add_le_add_left ?_ _
  rcases List.append_eq_append_iff.mp same with ⟨more, long, _⟩ | ⟨more, short, _⟩
  · rw [long, Text.byteLength_append]
    exact Nat.le_add_right _ _
  · -- The name would go on behind the edge.
    obtain ⟨c, last⟩ := Option.isSome_iff_exists.mp (List.getLast?_isSome.mpr nonempty)
    have inName : c ∈ name := short ▸ List.mem_append_left more (List.mem_of_getLast? last)
    have atEdge := edge c (by rw [List.getLast?_append_of_ne_nil _ nonempty, last])
    rw [word c inName] at atEdge
    cases atEdge

/-- Two places of a name behind edges are the same, or the name at the one is apart from the name at
the other. -/
theorem eq_or_apart_of_splits {name before after before' after' : Text}
    (word : ∀ c ∈ name, isNameChar c = true) (edge : Edge before) (edge' : Edge before')
    (same : before ++ name ++ after = before' ++ name ++ after') :
    before = before' ∨ Region.Apart ⟨Text.byteLength before, Text.byteLength name⟩
      ⟨Text.byteLength before', Text.byteLength name⟩ := by
  rw [List.append_assoc, List.append_assoc] at same
  rcases List.append_eq_append_iff.mp same with ⟨middle, rfl, behind⟩ | ⟨middle, rfl, behind⟩
  · by_cases here : middle = []
    · exact Or.inl (by rw [here, List.append_nil])
    · exact Or.inr (Or.inl (byteLength_le_of_edge here edge' word behind))
  · by_cases here : middle = []
    · exact Or.inl (by rw [here, List.append_nil])
    · exact Or.inr (Or.inr (byteLength_le_of_edge here edge word behind))

/-! ### What stands in front of a name -/

theorem isBlank_eq_false_of_digit {c : Char} (digit : '0' ≤ c ∧ c ≤ '9') :
    Text.isBlank c = false := by
  have bounds : 48 ≤ c.toNat ∧ c.toNat ≤ 57 := digit
  simp only [Text.isBlank, inRanges, Text.blankRanges, List.any_cons, List.any_nil,
    Bool.or_eq_false_iff, Bool.and_eq_false_iff, decide_eq_false_iff_not, and_true]
  omega

theorem isNameChar_eq_false_of_isBlank {c : Char} (blank : Text.isBlank c = true) :
    isNameChar c = false := by
  rw [← Bool.not_eq_true, isNameChar_iff]
  rintro (letter | digit)
  · exact Bool.false_ne_true (letter.isBlank_eq_false.symm.trans blank)
  · exact Bool.false_ne_true ((isBlank_eq_false_of_digit digit).symm.trans blank)

/-- The opening of a header ends in a dot or in the quote behind it. -/
theorem getLast?_opening {around : Text} (tried : around ∈ enclosures) (front table : Text) :
    ∃ c ∈ ['.', '"', '\''],
      (front ++ ('[' :: table ++ '.' :: around)).getLast? = some c := by
  have ending : (front ++ ('[' :: table ++ '.' :: around)).getLast? = ('.' :: around).getLast? := by
    rw [← List.append_assoc, List.getLast?_append_of_ne_nil _ (List.cons_ne_nil _ _)]
  simp only [enclosures, List.mem_cons, List.not_mem_nil, or_false] at tried
  rw [ending]
  rcases tried with rfl | rfl | rfl
  · exact ⟨'.', by decide, rfl⟩
  · exact ⟨'"', by decide, rfl⟩
  · exact ⟨'\'', by decide, rfl⟩

/-- Whole lines in front of another one end in a newline. -/
theorem getLast?_flatten_earlier {source line : Text} {earlier later : List Text}
    (split : Text.wholeLines source = earlier ++ line :: later) (c : Char)
    (last : earlier.flatten.getLast? = some c) : c = '\n' := by
  induction source using Text.lineInduction generalizing earlier with
  | last tail whole =>
    have none : earlier = [] := by
      by_cases nothing : tail = []
      · rw [nothing] at split
        exact absurd split.symm (List.append_ne_nil_of_right_ne_nil _ (List.cons_ne_nil _ _))
      · rw [Text.wholeLines_of_notMem whole nothing] at split
        cases earlier with
        | nil => rfl
        | cons first more =>
          exact absurd (List.cons_eq_cons.mp split).2.symm
            (List.append_ne_nil_of_right_ne_nil _ (List.cons_ne_nil _ _))
    rw [none] at last
    cases last
  | line first rest whole inductionHypothesis =>
    rw [Text.wholeLines_append_newline whole] at split
    cases earlier with
    | nil => cases last
    | cons front more =>
      obtain ⟨rfl, splitRest⟩ := List.cons_eq_cons.mp split
      rw [List.flatten_cons, List.getLast?_append, Option.or_eq_some_iff] at last
      rcases last with inMore | ⟨_, inFirst⟩
      · exact inductionHypothesis splitRest inMore
      · rw [List.getLast?_concat] at inFirst
        exact (Option.some.inj inFirst).symm

/-- White space stands in front of a line, if anything does. -/
theorem isBlank_of_getLast?_line {source line : Text} {earlier later : List Text}
    (split : Text.wholeLines source = earlier ++ line :: later) {c : Char}
    (last : (earlier.flatten ++ line.takeWhile Text.isBlank).getLast? = some c) :
    Text.isBlank c = true := by
  rw [List.getLast?_append, Option.or_eq_some_iff] at last
  rcases last with inLine | ⟨_, inEarlier⟩
  · exact List.all_eq_true.mp List.all_takeWhile c (List.mem_of_getLast? inLine)
  · rw [getLast?_flatten_earlier split c inEarlier]
    decide

theorem LeadsUp.edge {source table name before : Text} (leads : LeadsUp source table name before) :
    Edge before := by
  intro c last
  cases leads with
  | header front around tried =>
    obtain ⟨mark, isMark, ends⟩ := getLast?_opening tried front table
    have plain : ∀ mark ∈ ['.', '"', '\''], isNameChar mark = false := by
      rw [List.forall_mem_cons, List.forall_mem_cons, List.forall_mem_singleton]
      decide
    rw [ends] at last
    exact Option.some.inj last ▸ plain mark isMark
  | line earlier line behind later split inside shape =>
    exact isNameChar_eq_false_of_isBlank (isBlank_of_getLast?_line split last)

/-! ### Places in two tables -/

/-- A header and a line do not have the same text in front of a name. -/
theorem opening_ne_line {source line : Text} {earlier later : List Text}
    (split : Text.wholeLines source = earlier ++ line :: later) {around : Text}
    (tried : around ∈ enclosures) (front table : Text) :
    front ++ ('[' :: table ++ '.' :: around) ≠
      earlier.flatten ++ line.takeWhile Text.isBlank := by
  intro same
  obtain ⟨mark, isMark, ends⟩ := getLast?_opening tried front table
  have content : ∀ mark ∈ ['.', '"', '\''], Text.isBlank mark = false := by
    rw [List.forall_mem_cons, List.forall_mem_cons, List.forall_mem_singleton]
    decide
  rw [same] at ends
  have blank := isBlank_of_getLast?_line split ends
  rw [content mark isMark] at blank
  cases blank

/-- The openings of headers of the two tables differ in the letter in front of the last one of the
table's name. -/
theorem opening_ne_opening {around around' : Text} (tried : around ∈ enclosures)
    (tried' : around' ∈ enclosures) (front front' : Text) :
    front ++ ('[' :: Table.scalars.name ++ '.' :: around) ≠
      front' ++ ('[' :: Table.enums.name ++ '.' :: around') := by
  intro same
  have ending (front opening : Text) (long : 4 ≤ opening.length) :
      (front ++ opening).reverse.take 4 = opening.reverse.take 4 := by
    rw [List.reverse_append, List.take_append_of_le_length (by rwa [List.length_reverse])]
  simp only [enclosures, List.mem_cons, List.not_mem_nil, or_false] at tried tried'
  rcases tried with rfl | rfl | rfl <;> rcases tried' with rfl | rfl | rfl <;>
    refine absurd ((ending front _ (by decide)).symm.trans
      ((congrArg (fun text => text.reverse.take 4) same).trans (ending front' _ (by decide)))) ?_ <;>
    decide

/-- What stands in front of a name in one table does not stand in front of it in the other. -/
theorem ne_of_leadsUp {source name before before' : Text} (nonempty : name ≠ [])
    (leads : LeadsUp source Table.scalars.name name before)
    (leads' : LeadsUp source Table.enums.name name before') : before ≠ before' := by
  intro same
  cases leads with
  | header front around tried =>
    cases leads' with
    | header front' around' tried' => exact opening_ne_opening tried tried' front front' same
    | line earlier line behind later split inside shape =>
      exact opening_ne_line split tried front _ same
  | line earlier line behind later split inside shape =>
    cases leads' with
    | header front' around' tried' => exact opening_ne_line split tried' front' _ same.symm
    | line earlier' line' behind' later' split' inside' shape' =>
      -- The place lies in one line only, and that line is below one header only.
      have early : earlier ++ [line] <+: Text.wholeLines source :=
        ⟨later, by rw [split, List.append_assoc, List.singleton_append]⟩
      have early' : earlier' ++ [line'] <+: Text.wholeLines source :=
        ⟨later', by rw [split', List.append_assoc, List.singleton_append]⟩
      have inLine := inLine_of_split shape nonempty earlier
      have inLine' := inLine_of_split shape' nonempty earlier'
      rw [← same] at inLine'
      obtain ⟨rfl, rfl⟩ := InLine.unique early early' inLine inLine'
      rw [inTableBehind_false_iff] at inside inside'
      exact absurd (inside.unique inside' (by decide) (by decide)) (by decide)

/-! ### Labels of a repeated key -/

theorem Identifier.word {name : Text} (valid : Identifier name) :
    name ≠ [] ∧ ∀ c ∈ name, isNameChar c = true := by
  cases name with
  | nil => exact valid.elim
  | cons first rest =>
    refine ⟨List.cons_ne_nil _ _, List.forall_mem_cons.mpr ⟨?_, fun c member => ?_⟩⟩
    · exact (isNameChar_iff first).mpr (Or.inl valid.1)
    · exact (isNameChar_iff c).mpr (valid.2 c member)

theorem exists_resolve_of_assemble {catalog : Catalog} {entries : List Entry} {events : List Event}
    {entry : Entry} {fault : EntryFault}
    (stopped : assemble catalog entries = (events, .error (entry, fault))) :
    ∃ catalog : Catalog, entry.resolve catalog = .error fault := by
  induction entries generalizing catalog events with
  | nil => cases stopped
  | cons next rest inductionHypothesis =>
    cases resolved : next.resolve catalog with
    | error first =>
      rw [assemble_of_error resolved] at stopped
      cases stopped
      exact ⟨catalog, resolved⟩
    | ok descriptor =>
      rw [assemble_cons resolved] at stopped
      obtain ⟨rfl, later⟩ := Prod.mk.inj stopped
      exact inductionHypothesis (Prod.ext rfl later)

/-- An entry is only a duplicate if nothing is wrong with its name. -/
theorem Entry.identifier_of_duplicate {entry : Entry} {catalog : Catalog}
    (repeated : entry.resolve catalog = .error .duplicate) : Identifier entry.name := by
  rw [← nameFault?_eq_none_iff]
  cases found : nameFault? entry.name with
  | none => rfl
  | some fault =>
    rw [resolve, found] at repeated
    cases repeated

/-- The two labels of a key that is in both tables have no byte in common. Nor do the places to which
the searches for any identifier lead in the two tables, whatever the text is. -/
theorem labels_apart :
    (∀ (source : Source) (diagnostic : Diagnostic) (name : Text) (first second : Region),
      source.read.2 = .error diagnostic →
      diagnostic.error = .duplicateScalar name (some first) (some second) →
      diagnostic.error.labels =
        [⟨"first declared here".toList, first⟩, ⟨"declared again here".toList, second⟩] ∧
      first.Apart second) ∧
    ∀ (text name : Text) (first second : Region), Identifier name →
      locate? text Table.scalars.name name = some first →
      locate? text Table.enums.name name = some second → first.Apart second := by
  have apart (text name : Text) (first second : Region) (valid : Identifier name)
      (found : locate? text Table.scalars.name name = some first)
      (found' : locate? text Table.enums.name name = some second) : first.Apart second := by
    obtain ⟨nonempty, word⟩ := valid.word
    obtain ⟨before, after, split, rfl, leads⟩ := exists_leadsUp_of_locate? found
    obtain ⟨before', after', split', rfl, leads'⟩ := exists_leadsUp_of_locate? found'
    exact (eq_or_apart_of_splits word leads.edge leads'.edge (split.symm.trans split')).resolve_left
      (ne_of_leadsUp nonempty leads leads')
  refine ⟨fun source diagnostic name first second rejected duplicate => ?_, apart⟩
  have about : diagnostic.error.subject? = some name := by rw [duplicate]; rfl
  obtain ⟨_, _, entry, fault, _, stopped, rfl, rfl⟩ := exists_fault_of_subject? rejected about
  refine ⟨by rw [duplicate]; rfl, ?_⟩
  cases fault with
  | invalidName fault => cases duplicate
  | unbuildable cause => cases duplicate
  | duplicate =>
    obtain ⟨catalog, repeated⟩ := exists_resolve_of_assemble stopped
    obtain ⟨_, found, found'⟩ := Error.duplicateScalar.inj duplicate
    exact apart source.text entry.name first second (Entry.identifier_of_duplicate repeated)
      found found'

/-- A key that is in both tables, first in quotes in a header and then in an indented line. In a text
that is no document, a line that is indented by white space of three bytes. -/
theorem labels_apart_quoted :
    let source : Source :=
      ⟨"[scalars.\"a\"]\nprimary_type='x'\n[enums]\n a=\x7bdefault=''\x7d".toList, []⟩
    let error : Error := .duplicateScalar ['a'] (some ⟨10, 1⟩) (some ⟨40, 1⟩)
    let text : Text := "[scalars]\na=\n[enums]\n\u3000a=".toList
    (source.read.2 = .error ⟨source, error⟩ ∧ (⟨10, 1⟩ : Region).Apart ⟨40, 1⟩) ∧
      locate? text Table.scalars.name ['a'] = some ⟨10, 1⟩ ∧
      locate? text Table.enums.name ['a'] = some ⟨24, 1⟩ ∧ (⟨10, 1⟩ : Region).Apart ⟨24, 1⟩ := by
  intro source error text
  have rejected : source.read.2 = .error ⟨source, error⟩ := by with_unfolding_all rfl
  have found : locate? text Table.scalars.name ['a'] = some ⟨10, 1⟩ := by decide +kernel
  have foundAgain : locate? text Table.enums.name ['a'] = some ⟨24, 1⟩ := by decide +kernel
  exact ⟨⟨rejected, (labels_apart.1 source _ _ _ _ rejected rfl).2⟩, found, foundAgain,
    labels_apart.2 text ['a'] _ _ (by decide) found foundAgain⟩

end Scaffold.Catalog
