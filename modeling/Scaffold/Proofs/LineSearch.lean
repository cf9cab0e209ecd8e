/-
This file follows the search for a name through the lines of a source. All that the
search carries along is where the next line starts and whether that line lies in the
table. The latter is what the nearest header says: the last line so far that begins
with a bracket. So the search leads to the first line that assigns to the name in the
table, and to no other place.
-/

import Scaffold.Catalog.Error

namespace Scaffold.Catalog

/-! ### Below a header -/

/-- Whether the place behind some lines lies in a table, given whether the place in front of them
does. -/
def inTableBehind (table : Text) (inTable : Bool) (lines : List Text) : Bool :=
  lines.foldl (fun inside line =>
    if (Text.trimStart line).head? = some '[' then
      ('[' :: table ++ [']']).isPrefixOf (Text.trimStart line)
    else inside) inTable

/-- The last one of some lines that begins with a bracket, behind its leading white space. -/
def nearestHeader? (lines : List Text) : Option Text :=
  lines.findRev? fun line => (Text.trimStart line).head? = some '['

/-- The last line that begins with a bracket begins with the header of the table. -/
def BelowHeader (table : Text) (earlier : List Text) : Prop :=
  ∃ header, nearestHeader? earlier = some header ∧
    '[' :: table ++ [']'] <+: Text.trimStart header

theorem nearestHeader?_cons (line : Text) (rest : List Text) :
    nearestHeader? (line :: rest) =
      (nearestHeader? rest).or
        (if (Text.trimStart line).head? = some '[' then some line else none) := by
  rw [nearestHeader?, List.findRev?_eq_find?_reverse, List.reverse_cons, List.find?_append,
    ← List.findRev?_eq_find?_reverse, List.find?_singleton]
  simp only [decide_eq_true_eq, nearestHeader?]

/-- The nearest header tells whether a place lies in the table. Behind lines without one it lies there
if the place in front of them does. -/
theorem inTableBehind_eq (table : Text) (inTable : Bool) (lines : List Text) :
    inTableBehind table inTable lines =
      ((nearestHeader? lines).map fun header =>
        ('[' :: table ++ [']']).isPrefixOf (Text.trimStart header)).getD inTable := by
  induction lines generalizing inTable with
  | nil => rfl
  | cons line rest inductionHypothesis =>
    have step : inTableBehind table inTable (line :: rest) =
        inTableBehind table (inTableBehind table inTable [line]) rest := rfl
    rw [step, inductionHypothesis, nearestHeader?_cons]
    cases nearestHeader? rest with
    | some header => rfl
    | none =>
      rw [Option.none_or, inTableBehind, List.foldl_cons, List.foldl_nil]
      split <;> rfl

theorem inTableBehind_false_iff (table : Text) (earlier : List Text) :
    inTableBehind table false earlier = true ↔ BelowHeader table earlier := by
  rw [inTableBehind_eq, BelowHeader]
  cases nearestHeader? earlier with
  | none => exact ⟨nofun, fun ⟨_, found, _⟩ => nomatch found⟩
  | some header =>
    refine List.isPrefixOf_iff_prefix.trans ⟨fun begins => ⟨header, rfl, begins⟩, ?_⟩
    rintro ⟨_, found, begins⟩
    exact Option.some.inj found ▸ begins

/-- No line is below the headers of two tables. -/
theorem BelowHeader.unique {table other : Text} {earlier : List Text}
    (below : BelowHeader table earlier) (belowOther : BelowHeader other earlier)
    (closed : ']' ∉ table) (closedOther : ']' ∉ other) : table = other := by
  obtain ⟨header, found, behind, begins⟩ := below
  obtain ⟨header', found', behind', begins'⟩ := belowOther
  rw [Option.some.inj (found.symm.trans found')] at begins
  have same : table ++ ']' :: behind = other ++ ']' :: behind' := by
    simpa using begins.trans begins'.symm
  rw [← Text.takeWhile_ne_append closed behind, same, Text.takeWhile_ne_append closedOther]

/-! ### Places in lines -/

/-- A place lies in a line, given the lines in front of it. -/
structure InLine (place : Nat) (earlier : List Text) (line : Text) : Prop where
  start : Text.byteLength earlier.flatten ≤ place
  stop : place < Text.byteLength (earlier ++ [line]).flatten

theorem InLine.not_prefix {place : Nat} {earlier earlier' : List Text} {line line' : Text}
    (inLine : InLine place earlier line) (inLine' : InLine place earlier' line') :
    ¬ earlier ++ [line] <+: earlier' := by
  rintro ⟨between, rfl⟩
  have start := inLine'.start
  rw [List.flatten_append, Text.byteLength_append] at start
  exact absurd inLine.stop (Nat.not_lt.mpr (Nat.le_of_add_right_le start))

/-- No place lies in two lines. -/
theorem InLine.unique {place : Nat} {lines earlier earlier' : List Text} {line line' : Text}
    (early : earlier ++ [line] <+: lines) (early' : earlier' ++ [line'] <+: lines)
    (inLine : InLine place earlier line) (inLine' : InLine place earlier' line') :
    earlier = earlier' ∧ line = line' := by
  have same : earlier ++ [line] = earlier' ++ [line'] := by
    rcases List.prefix_or_prefix_of_prefix early early' with short | long
    · exact (List.prefix_concat_iff.mp short).resolve_right (inLine.not_prefix inLine')
    · exact ((List.prefix_concat_iff.mp long).resolve_right (inLine'.not_prefix inLine)).symm
  exact ⟨(List.append_inj' same rfl).1, List.singleton_inj.mp (List.append_inj' same rfl).2⟩

/-- What stands behind some text in a line lies in that line. -/
theorem inLine_of_split {line lead name behind : Text} (split : line = lead ++ name ++ behind)
    (nonempty : name ≠ []) (earlier : List Text) :
    InLine (Text.byteLength (earlier.flatten ++ lead)) earlier line := by
  have whole : (earlier ++ [line]).flatten = earlier.flatten ++ lead ++ (name ++ behind) := by
    simp only [split, List.flatten_append, List.flatten_singleton, List.append_assoc]
  refine ⟨?_, ?_⟩
  · rw [Text.byteLength_append]
    exact Nat.le_add_right _ _
  · rw [whole, Text.byteLength_append (earlier.flatten ++ lead)]
    refine Nat.lt_add_of_pos_right (Text.byteLength_pos fun empty => nonempty ?_)
    exact (List.append_eq_nil_iff.mp empty).1

/-! ### Assignments -/

/-- Behind its leading white space a line is a name, an equals sign and anything. There may be white
space in front of the sign, and the line does not begin with a bracket. -/
structure AssignsTo (name line : Text) : Prop where
  plain : (Text.trimStart line).head? ≠ some '['
  shape : ∃ gap value, Text.allBlank gap = true ∧
    Text.trimStart line = name ++ gap ++ '=' :: value

theorem assigns_iff (name text : Text) :
    assigns name text = true ↔
      ∃ gap value, Text.allBlank gap = true ∧ text = name ++ gap ++ '=' :: value := by
  rw [assigns, decide_eq_true_iff, List.isPrefixOf_iff_prefix]
  constructor
  · rintro ⟨⟨behind, rfl⟩, sign⟩
    rw [List.drop_left, List.head?_eq_some_iff] at sign
    obtain ⟨value, sign⟩ := sign
    refine ⟨behind.takeWhile Text.isBlank, value, List.all_takeWhile, ?_⟩
    rw [List.append_assoc, ← sign]
    exact congrArg (name ++ ·) List.takeWhile_append_dropWhile.symm
  · rintro ⟨gap, value, blank, rfl⟩
    rw [List.append_assoc, List.drop_left, Text.trimStart,
      List.dropWhile_append_of_pos (List.all_eq_true.mp blank),
      List.dropWhile_cons_of_neg (by decide)]
    exact ⟨List.prefix_append name _, rfl⟩

theorem AssignsTo.exists_split {name line : Text} (assigned : AssignsTo name line) :
    ∃ gap value, Text.allBlank gap = true ∧
      line = line.takeWhile Text.isBlank ++ name ++ (gap ++ '=' :: value) := by
  obtain ⟨gap, value, blank, shape⟩ := assigned.shape
  refine ⟨gap, value, blank, ?_⟩
  rw [List.append_assoc, ← List.append_assoc name, ← shape]
  exact List.takeWhile_append_dropWhile.symm

/-! ### From line to line -/

/-- A line that lies in a table assigns to a name. Whether the first of the lines in front of it lies
in the table is given. -/
def AssignsIn (table name : Text) (inTable : Bool) (earlier : List Text) (line : Text) : Prop :=
  inTableBehind table inTable earlier = true ∧ AssignsTo name line

section

variable {table name : Text} {inTable : Bool}

theorem locateLine?_of_assignsTo {line : Text} (assigned : AssignsTo name line) (start : Nat)
    (rest : List Text) :
    locateLine? table name true start (line :: rest) =
      some (start + Text.byteLength (line.takeWhile Text.isBlank)) := by
  rw [locateLine?, if_neg assigned.plain,
    if_pos ⟨rfl, (assigns_iff name (Text.trimStart line)).mpr assigned.shape⟩]

/-- A line that does not assign to the name in the table only moves the place and says whether the
next line lies in the table. -/
theorem locateLine?_cons {line : Text} (passed : ¬ AssignsIn table name inTable [] line)
    (start : Nat) (rest : List Text) :
    locateLine? table name inTable start (line :: rest) =
      locateLine? table name (inTableBehind table inTable [line])
        (start + Text.byteLength line) rest := by
  rw [locateLine?, inTableBehind, List.foldl_cons, List.foldl_nil]
  by_cases header : (Text.trimStart line).head? = some '['
  · rw [if_pos header, if_pos header]
  · rw [if_neg header, if_neg header, if_neg]
    rintro ⟨inside, assigned⟩
    exact passed ⟨inside, header, (assigns_iff name _).mp assigned⟩

/-- The search goes through lines of which none assigns to the name in the table, and carries on with
what it has learned from them: whether the next line lies in the table, and where it starts. -/
theorem locateLine?_append {earlier : List Text}
    (passed : ∀ front first, front ++ [first] <+: earlier →
      ¬ AssignsIn table name inTable front first) (start : Nat) (rest : List Text) :
    locateLine? table name inTable start (earlier ++ rest) =
      locateLine? table name (inTableBehind table inTable earlier)
        (start + Text.byteLength earlier.flatten) rest := by
  induction earlier generalizing inTable start with
  | nil => rfl
  | cons line more inductionHypothesis =>
    have passedLine : ¬ AssignsIn table name inTable [] line :=
      passed [] line (List.prefix_append [line] more)
    have passedMore (front : List Text) (first : Text) (early : front ++ [first] <+: more) :
        ¬ AssignsIn table name (inTableBehind table inTable [line]) front first :=
      passed (line :: front) first (List.cons_prefix_cons.mpr ⟨rfl, early⟩)
    rw [List.cons_append, locateLine?_cons passedLine, inductionHypothesis passedMore,
      List.flatten_cons, Text.byteLength_append, Nat.add_assoc]
    rfl

/-- Of the lines that assign to a name in a table one is the first. -/
theorem exists_first_assignsIn {lines : List Text}
    (somewhere : ∃ earlier line, earlier ++ [line] <+: lines ∧
      AssignsIn table name inTable earlier line) :
    ∃ earlier line, earlier ++ [line] <+: lines ∧ AssignsIn table name inTable earlier line ∧
      ∀ front first, front ++ [first] <+: earlier →
        ¬ AssignsIn table name inTable front first := by
  obtain ⟨earlier, line, early, assigned⟩ := somewhere
  induction length : earlier.length using Nat.strongRecOn generalizing earlier line with
  | ind bound inductionHypothesis =>
    by_cases again : ∃ front first, front ++ [first] <+: earlier ∧
        AssignsIn table name inTable front first
    · obtain ⟨front, first, earlierStill, assignedFirst⟩ := again
      have shorter : front.length < bound := by
        have bounded := earlierStill.length_le
        rw [List.length_append, List.length_singleton, length] at bounded
        exact bounded
      exact inductionHypothesis _ shorter front first
        ((earlierStill.trans (List.prefix_append earlier [line])).trans early) assignedFirst rfl
    · exact ⟨earlier, line, early, assigned, fun front first earlierStill assignedFirst =>
        again ⟨front, first, earlierStill, assignedFirst⟩⟩

/-- The search in lines leads to the first one that assigns to the name in the table, behind the white
space at its start. -/
theorem locateLine?_eq_some_iff {start offset : Nat} {lines : List Text} :
    locateLine? table name inTable start lines = some offset ↔
      ∃ earlier line, earlier ++ [line] <+: lines ∧ AssignsIn table name inTable earlier line ∧
        (∀ front first, front ++ [first] <+: earlier →
          ¬ AssignsIn table name inTable front first) ∧
        offset = start + Text.byteLength (earlier.flatten ++ line.takeWhile Text.isBlank) := by
  have found {earlier : List Text} {line : Text} (early : earlier ++ [line] <+: lines)
      (assigned : AssignsIn table name inTable earlier line)
      (passed : ∀ front first, front ++ [first] <+: earlier →
        ¬ AssignsIn table name inTable front first) :
      locateLine? table name inTable start lines =
        some (start + Text.byteLength (earlier.flatten ++ line.takeWhile Text.isBlank)) := by
    obtain ⟨later, rfl⟩ := early
    rw [List.append_assoc, locateLine?_append passed, assigned.1, List.singleton_append,
      locateLine?_of_assignsTo assigned.2, Nat.add_assoc, Text.byteLength_append]
  constructor
  · intro leads
    by_cases somewhere : ∃ earlier line, earlier ++ [line] <+: lines ∧
        AssignsIn table name inTable earlier line
    · obtain ⟨earlier, line, early, assigned, passed⟩ := exists_first_assignsIn somewhere
      refine ⟨earlier, line, early, assigned, passed, Option.some.inj ?_⟩
      rw [← leads, found early assigned passed]
    · -- The search would come to the end of the lines.
      have passed (front : List Text) (first : Text) (early : front ++ [first] <+: lines) :
          ¬ AssignsIn table name inTable front first :=
        fun assigned => somewhere ⟨front, first, early, assigned⟩
      have nowhere := locateLine?_append passed start []
      rw [List.append_nil, leads] at nowhere
      cases nowhere
  · rintro ⟨earlier, line, early, assigned, passed, rfl⟩
    exact found early assigned passed

end

end Scaffold.Catalog
