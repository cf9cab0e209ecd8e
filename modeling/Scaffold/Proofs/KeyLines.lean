/-
This file proves where the search for a name ends in a source that spells no header of
the name: at the first line with that name for a key, below a header of the table. There
may be several headers of the table, with those of other tables between them.

No part of a longer key is taken for the name. An identifier has neither white space nor
an equals sign in it, so what is left of the text in front of the first equals sign
without the white space around it is the name and nothing else.
-/

import Scaffold.Proofs.Apartness
import Scaffold.Proofs.Comments
import Scaffold.Proofs.Indentation

namespace Scaffold.Catalog

/-! ### Keys -/

/-- A line declares a name in a table, given the lines in front of it: it assigns to the name, and it
is below a header of the table. -/
structure KeyLine (table name : Text) (earlier : List Text) (line : Text) : Prop where
  below : BelowHeader table earlier
  assigned : AssignsTo name line

theorem assignsIn_false_iff {table name line : Text} {earlier : List Text} :
    AssignsIn table name false earlier line ↔ KeyLine table name earlier line := by
  rw [AssignsIn, inTableBehind_false_iff]
  exact ⟨fun both => ⟨both.1, both.2⟩, fun key => ⟨key.below, key.assigned⟩⟩

/-- The text in front of the first equals sign of a line, without the white space around it. -/
def keyOf (line : Text) : Text :=
  Text.trim (line.takeWhile (· ≠ '='))

theorem Identifier.isBlank_eq_false {name : Text} (valid : Identifier name) {c : Char}
    (member : c ∈ name) : Text.isBlank c = false := by
  rw [← Bool.not_eq_true]
  intro white
  exact Bool.false_ne_true
    ((isNameChar_eq_false_of_isBlank white).symm.trans (valid.word.2 c member))

theorem Identifier.flush {name : Text} (valid : Identifier name) : Text.Flush name := by
  obtain ⟨c, rest, rfl⟩ := List.exists_cons_of_ne_nil valid.word.1
  exact congrArg some (valid.isBlank_eq_false List.mem_cons_self)

/-- A line that assigns to an identifier has that identifier as its key, and not just as the start of
its key. -/
theorem AssignsTo.keyOf_eq {name line : Text} (assigned : AssignsTo name line)
    (valid : Identifier name) : keyOf line = name := by
  obtain ⟨gap, value, blank, split⟩ := assigned.exists_split
  have leadBlank : Text.allBlank (line.takeWhile Text.isBlank) = true := List.all_takeWhile
  have noSign {blanks : Text} (blank : Text.allBlank blanks = true) : '=' ∉ blanks :=
    fun member => absurd (List.all_eq_true.mp blank _ member) (by decide)
  have unsigned : '=' ∉ line.takeWhile Text.isBlank ++ (name ++ gap) :=
    List.not_mem_append (noSign leadBlank)
      (List.not_mem_append (fun member => absurd (valid.word.2 _ member) (by decide)) (noSign blank))
  have before : line.takeWhile (· ≠ '=') = line.takeWhile Text.isBlank ++ (name ++ gap) := by
    conv_lhs => rw [split, List.append_assoc, ← List.append_assoc name, ← List.append_assoc]
    exact Text.takeWhile_ne_append unsigned value
  rw [keyOf, before, Text.trim, Text.trimStart_append leadBlank,
    (valid.flush.append gap).trimStart, Text.trimEnd_append_of_allBlank name blank,
    Text.trimEnd_of_plain fun c member => valid.isBlank_eq_false member]

/-! ### The search in a source -/

/-- A source that spells no header of a name is searched line by line, and the search leads to the
first line that declares the name. -/
theorem locate?_eq_some_iff {source table name : Text}
    (unspelled : ∀ around ∈ enclosures, ¬ headerText table name around <:+: source)
    (region : Region) :
    locate? source table name = some region ↔
      ∃ earlier line, earlier ++ [line] <+: Text.wholeLines source ∧
        KeyLine table name earlier line ∧
        (∀ front first, front ++ [first] <+: earlier → ¬ KeyLine table name front first) ∧
        region = ⟨Text.byteLength (earlier.flatten ++ line.takeWhile Text.isBlank),
          Text.byteLength name⟩ := by
  have noHeader : enclosures.findSome? (locateHeader? source table name) = none :=
    List.findSome?_eq_none_iff.mpr fun around tried =>
      locateHeader?_eq_none_iff.mpr (unspelled around tried)
  rw [locate?_eq, noHeader, Option.none_or, Option.map_eq_some_iff]
  simp only [locateLine?_eq_some_iff, assignsIn_false_iff, Nat.zero_add]
  constructor
  · rintro ⟨_, ⟨earlier, line, early, key, passed, rfl⟩, rfl⟩
    exact ⟨earlier, line, early, key, passed, rfl⟩
  · rintro ⟨earlier, line, early, key, passed, rfl⟩
    exact ⟨_, ⟨earlier, line, early, key, passed, rfl⟩, rfl⟩

/-- In a source that spells no header of an identifier, the search for it in a table leads somewhere
exactly if some line declares it there: a line that begins with the name and an equals sign and not
with a bracket, below a header of the table. It then leads to the name in the first such line. So it
never leads into a line with another key, such as one that the name is only the start of, nor into a
line below the header of another table. -/
theorem line_lookup_exact {source table name : Text} (closed : ']' ∉ table)
    (valid : Identifier name)
    (unspelled : ∀ around ∈ enclosures, ¬ headerText table name around <:+: source) :
    (∀ region, locate? source table name = some region ↔
      ∃ earlier line, earlier ++ [line] <+: Text.wholeLines source ∧
        KeyLine table name earlier line ∧
        (∀ front first, front ++ [first] <+: earlier → ¬ KeyLine table name front first) ∧
        region = ⟨Text.byteLength (earlier.flatten ++ line.takeWhile Text.isBlank),
          Text.byteLength name⟩) ∧
    ((∃ region, locate? source table name = some region) ↔
      ∃ earlier line, earlier ++ [line] <+: Text.wholeLines source ∧
        KeyLine table name earlier line) ∧
    ∀ earlier line, earlier ++ [line] <+: Text.wholeLines source →
      (keyOf line ≠ name ∨ ∃ other, other ≠ table ∧ ']' ∉ other ∧ BelowHeader other earlier) →
      ∀ region, locate? source table name = some region →
        ¬ InLine region.offset earlier line := by
  have exact := locate?_eq_some_iff unspelled
  refine ⟨exact, ⟨?_, ?_⟩, ?_⟩
  · rintro ⟨region, found⟩
    obtain ⟨earlier, line, early, key, _⟩ := (exact region).mp found
    exact ⟨earlier, line, early, key⟩
  · intro declared
    simp only [← assignsIn_false_iff] at declared
    obtain ⟨earlier, line, early, assigned, passed⟩ := exists_first_assignsIn declared
    simp only [assignsIn_false_iff] at assigned passed
    exact ⟨_, (exact _).mpr ⟨earlier, line, early, assigned, passed, rfl⟩⟩
  · intro earlier line early foreign region found inLine
    obtain ⟨earlier', line', early', key, _, rfl⟩ := (exact region).mp found
    obtain ⟨_, _, _, split⟩ := key.assigned.exists_split
    obtain ⟨rfl, rfl⟩ :=
      InLine.unique early' early (inLine_of_split split valid.word.1 earlier') inLine
    rcases foreign with longer | ⟨other, different, closedOther, below⟩
    · exact longer (key.assigned.keyOf_eq valid)
    · exact different (below.unique key.below closedOther closed)

/-- A line below the header of another table, a line with a longer key, and behind a character of two
bytes the name in a last line that is indented by a character of three. -/
theorem line_lookup_exact_indented :
    let text : Text := "[u]\nx=0\n\t[t]#\nxy=ü\n\u3000x =".toList
    let longer : List Text := ["[u]\n".toList, "x=0\n".toList, "\t[t]#\n".toList]
    (']' ∉ ['t'] ∧ Identifier ['x'] ∧
      ∀ around ∈ enclosures, ¬ headerText ['t'] ['x'] around <:+: text) ∧
    locate? text ['t'] ['x'] = some ⟨23, 1⟩ ∧
    (∃ earlier line, earlier ++ [line] <+: Text.wholeLines text ∧
      KeyLine ['t'] ['x'] earlier line ∧
      (∀ front first, front ++ [first] <+: earlier → ¬ KeyLine ['t'] ['x'] front first) ∧
      (⟨23, 1⟩ : Region) =
        ⟨Text.byteLength (earlier.flatten ++ line.takeWhile Text.isBlank), 1⟩) ∧
    ¬ InLine 23 longer "xy=ü\n".toList ∧ ¬ InLine 23 ["[u]\n".toList] "x=0\n".toList := by
  intro text longer
  have closed : ']' ∉ ['t'] := by decide
  have valid : Identifier ['x'] := by decide
  have unspelled : ∀ around ∈ enclosures, ¬ headerText ['t'] ['x'] around <:+: text := by
    decide +kernel
  have found : locate? text ['t'] ['x'] = some ⟨23, 1⟩ := by decide +kernel
  obtain ⟨exact, _, foreign⟩ := line_lookup_exact closed valid unspelled
  have below : BelowHeader ['u'] ["[u]\n".toList] := ⟨"[u]\n".toList, by decide, by decide⟩
  exact ⟨⟨closed, valid, unspelled⟩, found, (exact _).mp found,
    foreign longer _ (by decide) (Or.inl (by decide)) _ found,
    foreign _ _ (by decide) (Or.inr ⟨['u'], by decide, by decide, below⟩) _ found⟩

end Scaffold.Catalog
