/-
This file proves that every document that can be read is well formed: in no table of
it, however deep, does a key come twice. Entries are only ever changed in two ways. A
key either changes the entry that it has already, or it goes behind entries that do
not have it. So changes that keep what is below them well formed keep the whole so.
-/

import Scaffold.Toml.Document

namespace Scaffold.Toml

/-! ### Well-formed values -/

/-- The keys of some entries. -/
def keyTexts (entries : Entries) : List Text :=
  entries.map fun entry => entry.1.text

/-- In the value, and in all that it is made of, no table has a key twice. -/
inductive Tree.WellFormed : Tree → Prop
  | text (span : Span) (value : Text) : WellFormed (.text span value)
  | plain (span : Span) (value : Plain) : WellFormed (.plain span value)
  | array {span : Span} {ofTables : Bool} {elements : List Tree}
      (each : ∀ tree ∈ elements, WellFormed tree) : WellFormed (.array span ofTables elements)
  | table {span : Span} {origin : Origin} {entries : Entries}
      (distinct : (keyTexts entries).Nodup) (each : ∀ entry ∈ entries, WellFormed entry.2) :
      WellFormed (.table span origin entries)

/-- The entries have distinct keys, and well-formed values. -/
structure WellFormed (entries : Entries) : Prop where
  distinct : (keyTexts entries).Nodup
  each : ∀ entry ∈ entries, entry.2.WellFormed

theorem Tree.wellFormed_table_iff {span : Span} {origin : Origin} {entries : Entries} :
    (Tree.table span origin entries).WellFormed ↔ Toml.WellFormed entries := by
  constructor
  · rintro (_ | _ | _ | ⟨distinct, each⟩)
    exact ⟨distinct, each⟩
  · exact fun wellFormed => .table wellFormed.distinct wellFormed.each

theorem Tree.wellFormed_array_iff {span : Span} {ofTables : Bool} {elements : List Tree} :
    (Tree.array span ofTables elements).WellFormed ↔ ∀ tree ∈ elements, tree.WellFormed := by
  constructor
  · rintro (_ | _ | ⟨each⟩ | _)
    exact each
  · exact .array

namespace WellFormed

theorem nil : WellFormed [] :=
  ⟨List.nodup_nil, fun _ member => absurd member List.not_mem_nil⟩

theorem cons_iff {key : Key} {tree : Tree} {rest : Entries} :
    WellFormed ((key, tree) :: rest) ↔
      key.text ∉ keyTexts rest ∧ tree.WellFormed ∧ WellFormed rest := by
  constructor
  · rintro ⟨distinct, each⟩
    obtain ⟨fresh, distinctRest⟩ := List.nodup_cons.mp distinct
    obtain ⟨here, eachRest⟩ := List.forall_mem_cons.mp each
    exact ⟨fresh, here, distinctRest, eachRest⟩
  · rintro ⟨fresh, here, distinct, each⟩
    exact ⟨List.nodup_cons.mpr ⟨fresh, distinct⟩, List.forall_mem_cons.mpr ⟨here, each⟩⟩

/-- A key that is not there yet may go behind all others. -/
theorem append_singleton {key : Key} {tree : Tree} {entries : Entries}
    (wellFormed : WellFormed entries) (fresh : key.text ∉ keyTexts entries)
    (value : tree.WellFormed) : WellFormed (entries ++ [(key, tree)]) := by
  refine ⟨?_, List.forall_mem_append.mpr ⟨wellFormed.each, List.forall_mem_singleton.mpr value⟩⟩
  rw [keyTexts, List.map_append]
  refine List.nodup_append.mpr ⟨wellFormed.distinct, List.pairwise_singleton _ _, ?_⟩
  intro name member other isKey same
  rw [List.map_singleton, List.mem_singleton] at isKey
  exact fresh (isKey ▸ same ▸ member)

theorem filter {entries : Entries} (wellFormed : WellFormed entries) (keep : Key × Tree → Bool) :
    WellFormed (entries.filter keep) :=
  ⟨wellFormed.distinct.sublist (List.filter_sublist.map _),
    fun entry member => wellFormed.each entry (List.mem_filter.mp member |>.1)⟩

end WellFormed

/-! ### Changes -/

/-- The change makes well-formed values of well-formed ones. -/
def Keeps (change : Tree → Option Tree) : Prop :=
  ∀ tree, tree.WellFormed → ∀ next ∈ change tree, next.WellFormed

/-- The change makes well-formed entries of well-formed ones. -/
def KeepsEntries (change : Entries → Option Entries) : Prop :=
  ∀ entries, WellFormed entries → ∀ next ∈ change entries, WellFormed next

/-- Changing the entry of a key brings in no other key. -/
theorem mem_keyTexts_changeAt? {key : Key} {fresh : Option Tree} {change : Tree → Option Tree}
    {entries next : Entries} (changed : next ∈ changeAt? key fresh change entries) {name : Text}
    (member : name ∈ keyTexts next) : name = key.text ∨ name ∈ keyTexts entries := by
  induction entries generalizing next with
  | nil =>
    obtain ⟨tree, _, rfl⟩ := Option.map_eq_some_iff.mp changed
    exact Or.inl (List.mem_singleton.mp member)
  | cons entry more inductionHypothesis =>
    obtain ⟨other, tree⟩ := entry
    by_cases same : other.text = key.text
    · rw [changeAt?, if_pos same] at changed
      obtain ⟨value, _, rfl⟩ := Option.map_eq_some_iff.mp changed
      exact Or.inr member
    · rw [changeAt?, if_neg same] at changed
      obtain ⟨later, changedLater, rfl⟩ := Option.map_eq_some_iff.mp changed
      rcases List.mem_cons.mp member with isOther | inLater
      · exact Or.inr (List.mem_cons.mpr (Or.inl isOther))
      · exact (inductionHypothesis changedLater inLater).imp id (List.mem_cons_of_mem _)

theorem keepsEntries_changeAt? {key : Key} {fresh : Option Tree} {change : Tree → Option Tree}
    (made : ∀ tree ∈ fresh, tree.WellFormed) (keeps : Keeps change) :
    KeepsEntries (changeAt? key fresh change) := by
  intro entries wellFormed next changed
  induction entries generalizing next with
  | nil =>
    obtain ⟨tree, isFresh, rfl⟩ := Option.map_eq_some_iff.mp changed
    exact WellFormed.cons_iff.mpr ⟨List.not_mem_nil, made tree isFresh, .nil⟩
  | cons entry more inductionHypothesis =>
    obtain ⟨other, tree⟩ := entry
    obtain ⟨apart, here, behind⟩ := WellFormed.cons_iff.mp wellFormed
    by_cases same : other.text = key.text
    · rw [changeAt?, if_pos same] at changed
      obtain ⟨value, isValue, rfl⟩ := Option.map_eq_some_iff.mp changed
      exact WellFormed.cons_iff.mpr ⟨apart, keeps tree here value isValue, behind⟩
    · rw [changeAt?, if_neg same] at changed
      obtain ⟨later, changedLater, rfl⟩ := Option.map_eq_some_iff.mp changed
      refine WellFormed.cons_iff.mpr ⟨fun member => ?_, here,
        inductionHypothesis behind later changedLater⟩
      exact (mem_keyTexts_changeAt? changedLater member).elim same apart

theorem keeps_changeTable? {allowed : Origin → Bool} {change : Entries → Option Entries}
    (keeps : KeepsEntries change) : Keeps (changeTable? allowed change) := by
  intro tree wellFormed next changed
  cases tree with
  | table span origin entries =>
    rw [changeTable?] at changed
    split at changed
    · obtain ⟨more, isMore, rfl⟩ := Option.map_eq_some_iff.mp changed
      rw [Tree.wellFormed_table_iff] at wellFormed ⊢
      exact keeps entries wellFormed more isMore
    · cases changed
  | text span value => cases changed
  | plain span value => cases changed
  | array span ofTables elements => cases changed

theorem wellFormed_of_mem_changeLast? {change : Tree → Option Tree} (keeps : Keeps change)
    {elements next : List Tree} (each : ∀ tree ∈ elements, tree.WellFormed)
    (changed : next ∈ changeLast? change elements) : ∀ tree ∈ next, tree.WellFormed := by
  fun_induction changeLast? change elements generalizing next with
  | case1 => cases changed
  | case2 tree =>
    obtain ⟨value, isValue, rfl⟩ := Option.map_eq_some_iff.mp changed
    exact List.forall_mem_singleton.mpr (keeps tree (each tree List.mem_cons_self) value isValue)
  | case3 tree more _ inductionHypothesis =>
    obtain ⟨here, eachMore⟩ := List.forall_mem_cons.mp each
    obtain ⟨later, isLater, rfl⟩ := Option.map_eq_some_iff.mp changed
    exact List.forall_mem_cons.mpr ⟨here, inductionHypothesis eachMore isLater⟩

/-- Changing the last table of an array keeps the array well formed. -/
theorem wellFormed_of_mem_changeLastTable? {span : Span} {change : Entries → Option Entries}
    (keeps : KeepsEntries change) {elements : List Tree} {next : Tree}
    (wellFormed : (Tree.array span true elements).WellFormed)
    (changed : next ∈
      (changeLast? (changeTable? (fun _ => true) change) elements).map (.array span true)) :
    next.WellFormed := by
  obtain ⟨more, isMore, rfl⟩ := Option.map_eq_some_iff.mp changed
  rw [Tree.wellFormed_array_iff] at wellFormed ⊢
  exact wellFormed_of_mem_changeLast? (keeps_changeTable? keeps) wellFormed isMore

/-- A table that is made for the entries that a change makes of none. -/
theorem wellFormed_of_mem_made {span : Span} {origin : Origin} {change : Entries → Option Entries}
    (keeps : KeepsEntries change) (tree : Tree)
    (made : tree ∈ (change []).map (.table span origin)) : tree.WellFormed := by
  obtain ⟨entries, isMade, rfl⟩ := Option.map_eq_some_iff.mp made
  exact Tree.wellFormed_table_iff.mpr (keeps [] .nil entries isMade)

theorem keepsEntries_assign? (key : Key) {value : Tree} (wellFormed : value.WellFormed)
    (path : List Key) : KeepsEntries (assign? key value path) := by
  induction path with
  | nil =>
    refine keepsEntries_changeAt? (fun tree isValue => ?_) fun _ _ _ none => nomatch none
    exact Option.some_inj.mp isValue ▸ wellFormed
  | cons part path inductionHypothesis =>
    refine keepsEntries_changeAt? (wellFormed_of_mem_made inductionHypothesis) ?_
    intro tree wellFormedTree next changed
    dsimp only at changed
    split at changed
    · split at changed
      · cases changed
      · exact wellFormed_of_mem_changeLastTable? inductionHypothesis wellFormedTree changed
    · exact keeps_changeTable? inductionHypothesis tree wellFormedTree next changed

theorem keepsEntries_reach? {change : Entries → Option Entries} (keeps : KeepsEntries change)
    (path : List Key) : KeepsEntries (reach? change path) := by
  induction path with
  | nil => exact keeps
  | cons part path inductionHypothesis =>
    refine keepsEntries_changeAt? (wellFormed_of_mem_made inductionHypothesis) ?_
    intro tree wellFormedTree next changed
    dsimp only at changed
    split at changed
    · exact wellFormed_of_mem_changeLastTable? inductionHypothesis wellFormedTree changed
    · exact keeps_changeTable? inductionHypothesis tree wellFormedTree next changed

/-- Changes that are made one after the other keep entries well formed if each of them does. -/
theorem keepsEntries_foldlM {Item : Type} {step : Entries → Item → Option Entries}
    {items : List Item} (each : ∀ item ∈ items, KeepsEntries (step · item)) :
    KeepsEntries fun entries => items.foldlM step entries := by
  intro entries wellFormed next changed
  dsimp only at changed
  induction items generalizing entries with
  | nil => exact Option.some_inj.mp changed ▸ wellFormed
  | cons item rest inductionHypothesis =>
    rw [List.foldlM_cons] at changed
    obtain ⟨between, isBetween, changed⟩ := Option.bind_eq_some_iff.mp changed
    obtain ⟨here, eachRest⟩ := List.forall_mem_cons.mp each
    exact inductionHypothesis eachRest between (here entries wellFormed between isBetween) changed

theorem keepsEntries_assignAll? {assignments : List Assignment}
    (each : ∀ assignment ∈ assignments, assignment.value.WellFormed) :
    KeepsEntries (assignAll? · assignments) :=
  keepsEntries_foldlM fun assignment member =>
    keepsEntries_assign? assignment.key (each assignment member) assignment.path

theorem keepsEntries_pushTable? (header : Header) {table : Entries}
    (wellFormed : WellFormed table) : KeepsEntries (pushTable? header table) := by
  have element : (Tree.table header.span .header table).WellFormed :=
    Tree.wellFormed_table_iff.mpr wellFormed
  refine keepsEntries_changeAt? (fun tree isFresh => ?_) fun tree wellFormedTree next changed => ?_
  · rw [← Option.some_inj.mp isFresh, Tree.wellFormed_array_iff]
    exact List.forall_mem_singleton.mpr element
  · split at changed
    · rw [← Option.some_inj.mp changed]
      rw [Tree.wellFormed_array_iff] at wellFormedTree ⊢
      exact List.forall_mem_append.mpr ⟨wellFormedTree, List.forall_mem_singleton.mpr element⟩
    · cases changed

theorem keepsEntries_defineTable? (header : Header) {assignments : List Assignment}
    (each : ∀ assignment ∈ assignments, assignment.value.WellFormed) :
    KeepsEntries (defineTable? header assignments) := by
  intro entries wellFormed next changed
  have fresh : header.key.text ∉
      keyTexts (entries.filter fun entry => entry.1.text ≠ header.key.text) := by
    intro member
    obtain ⟨entry, inOthers, same⟩ := List.mem_map.mp member
    exact of_decide_eq_true (List.mem_filter.mp inOthers).2 same
  have finish (before : Entries) (wellFormedBefore : WellFormed before)
      (made : ∃ table, assignAll? before assignments = some table ∧
        entries.filter (fun entry => entry.1.text ≠ header.key.text) ++
          [(header.key, .table header.span .header table)] = next) : WellFormed next := by
    obtain ⟨table, isTable, rfl⟩ := made
    exact (wellFormed.filter _).append_singleton fresh (Tree.wellFormed_table_iff.mpr
      (keepsEntries_assignAll? each before wellFormedBefore table isTable))
  simp only [Option.mem_def, defineTable?, Option.bind_eq_bind] at changed
  split at changed
  · simp only [Option.bind_some, Option.bind_eq_some_iff, Option.some_inj] at changed
    exact finish [] .nil changed
  case h_2 found =>
    simp only [Option.bind_some, Option.bind_eq_some_iff, Option.some_inj] at changed
    have member := List.mem_of_find?_eq_some found
    exact finish _ (Tree.wellFormed_table_iff.mp (wellFormed.each _ member)) changed
  · cases changed

theorem keepsEntries_addSection? {part : Header × List Assignment}
    (each : ∀ assignment ∈ part.2, assignment.value.WellFormed) :
    KeepsEntries (addSection? · part) := by
  obtain ⟨header, assignments⟩ := part
  intro entries wellFormed next changed
  dsimp only [addSection?] at changed
  split at changed
  · obtain ⟨table, isTable, changed⟩ := Option.bind_eq_some_iff.mp changed
    have wellFormedTable := keepsEntries_assignAll? each [] .nil table isTable
    exact keepsEntries_reach? (keepsEntries_pushTable? header wellFormedTable) header.path entries
      wellFormed next changed
  · exact keepsEntries_reach? (keepsEntries_defineTable? header each) header.path entries
      wellFormed next changed

/-! ### Documents that are read -/

theorem exists_of_mem_mapM {Item Value : Type} {read : Item → Option Value} {items : List Item}
    {values : List Value} (done : items.mapM read = some values) {value : Value}
    (member : value ∈ values) : ∃ item ∈ items, read item = some value := by
  induction items generalizing values with
  | nil =>
    rw [List.mapM_nil] at done
    rw [← Option.some_inj.mp done] at member
    exact absurd member List.not_mem_nil
  | cons item rest inductionHypothesis =>
    rw [List.mapM_cons] at done
    obtain ⟨here, isHere, done⟩ := Option.bind_eq_some_iff.mp done
    obtain ⟨later, isLater, done⟩ := Option.bind_eq_some_iff.mp done
    rw [← Option.some_inj.mp done] at member
    rcases List.mem_cons.mp member with rfl | inLater
    · exact ⟨item, List.mem_cons_self, isHere⟩
    · obtain ⟨other, inRest, isOther⟩ := inductionHypothesis isLater inLater
      exact ⟨other, List.mem_cons_of_mem _ inRest, isOther⟩

theorem wellFormed_of_readSimple? {tokens : List Token} {tree : Tree}
    (read : readSimple? tokens = some tree) : tree.WellFormed := by
  unfold readSimple? at read
  split at read
  · cases read
  · split at read
    · exact Option.some_inj.mp read ▸ .text _ _
    · simp only [Option.bind_eq_bind, Option.bind_eq_some_iff, Option.some_inj] at read
      obtain ⟨_, _, _, _, rfl⟩ := read
      exact .plain _ _

/-- What is assigned is well formed if all values that are read are. -/
theorem wellFormed_of_readAssignment? {readValue? : List Token → Option Tree}
    (reads : ∀ tokens tree, readValue? tokens = some tree → tree.WellFormed) {tokens : List Token}
    {assignment : Assignment} (read : readAssignment? readValue? tokens = some assignment) :
    assignment.value.WellFormed := by
  simp only [readAssignment?, Option.bind_eq_bind, Option.bind_eq_some_iff] at read
  obtain ⟨⟨path, key⟩, _, read⟩ := read
  split at read
  · simp only [Option.bind_eq_some_iff, Option.some_inj] at read
    obtain ⟨value, isValue, rfl⟩ := read
    exact reads _ value isValue
  · cases read

theorem wellFormed_of_readValue? (depth : Nat) (tokens : List Token) (tree : Tree)
    (read : readValue? depth tokens = some tree) : tree.WellFormed := by
  induction depth generalizing tokens tree with
  | zero =>
    unfold readValue? at read
    split at read
    · cases read
    · -- no bracket may open any more
      split at read
      case h_3 => exact wellFormed_of_readSimple? read
      all_goals contradiction
  | succ depth inductionHypothesis =>
    have readsAssignments (pieces : List (List Token)) (assignments : List Assignment)
        (done : pieces.mapM (readAssignment? (readValue? depth)) = some assignments) :
        ∀ assignment ∈ assignments, assignment.value.WellFormed := by
      intro assignment member
      obtain ⟨piece, _, isPiece⟩ := exists_of_mem_mapM done member
      exact wellFormed_of_readAssignment? inductionHypothesis isPiece
    unfold readValue? at read
    split at read
    · cases read
    · split at read
      case h_1 same =>
        cases same
        simp only [Option.bind_eq_bind, Option.bind_eq_some_iff, Option.some_inj] at read
        obtain ⟨inner, _, trees, done, rfl⟩ := read
        refine .array fun element member => ?_
        obtain ⟨piece, _, isPiece⟩ := exists_of_mem_mapM done member
        exact inductionHypothesis piece element isPiece
      case h_2 same =>
        cases same
        simp only [Option.bind_eq_bind, Option.bind_eq_some_iff, Option.some_inj] at read
        obtain ⟨inner, _, assignments, done, entries, isTable, rfl⟩ := read
        exact Tree.wellFormed_table_iff.mpr (keepsEntries_assignAll?
          (readsAssignments _ assignments done) [] .nil entries isTable)
      case h_3 => exact wellFormed_of_readSimple? read

/-- The assignments of a document are those of its lines. -/
theorem mem_of_gather (statements : List Statement) :
    (∀ assignment ∈ (gather statements).1, .assignment assignment ∈ statements) ∧
      ∀ part ∈ (gather statements).2, ∀ assignment ∈ part.2,
        .assignment assignment ∈ statements := by
  induction statements with
  | nil => exact ⟨List.forall_mem_nil _, List.forall_mem_nil _⟩
  | cons statement rest inductionHypothesis =>
    obtain ⟨top, parts⟩ := inductionHypothesis
    have partsBehind : ∀ part ∈ (gather rest).2, ∀ assignment ∈ part.2,
        .assignment assignment ∈ statement :: rest :=
      fun part member assignment inPart =>
        List.mem_cons_of_mem _ (parts part member assignment inPart)
    have topBehind : ∀ assignment ∈ (gather rest).1, .assignment assignment ∈ statement :: rest :=
      fun assignment member => List.mem_cons_of_mem _ (top assignment member)
    cases statement with
    | assignment assignment =>
      exact ⟨List.forall_mem_cons.mpr ⟨List.mem_cons_self, topBehind⟩, partsBehind⟩
    | header header =>
      exact ⟨List.forall_mem_nil _, List.forall_mem_cons.mpr ⟨topBehind, partsBehind⟩⟩

theorem wellFormed_of_readStatement? {tokens : List Token} {assignment : Assignment}
    (read : readStatement? tokens = some (.assignment assignment)) :
    assignment.value.WellFormed := by
  unfold readStatement? at read
  split at read
  · cases read
  · split at read
    · obtain ⟨_, _, other⟩ := Option.map_eq_some_iff.mp read
      cases other
    · obtain ⟨found, isFound, same⟩ := Option.map_eq_some_iff.mp read
      cases same
      exact wellFormed_of_readAssignment? (wellFormed_of_readValue? nestingLimit) isFound

/-- What can be read is well formed. -/
theorem wellFormed_of_read? {text : Text} {entries : Entries} (read : read? text = some entries) :
    WellFormed entries := by
  simp only [read?, Option.bind_eq_bind, Option.bind_eq_some_iff] at read
  obtain ⟨statements, areRead, first, isFirst, done⟩ := read
  have value (assignment : Assignment) (member : .assignment assignment ∈ statements) :
      assignment.value.WellFormed := by
    obtain ⟨line, _, isLine⟩ := exists_of_mem_mapM areRead member
    exact wellFormed_of_readStatement? isLine
  obtain ⟨top, parts⟩ := mem_of_gather statements
  have wellFormedFirst : WellFormed first :=
    keepsEntries_assignAll? (fun assignment member => value assignment (top assignment member)) []
      .nil first isFirst
  refine keepsEntries_foldlM (fun part member => ?_) first wellFormedFirst entries done
  exact keepsEntries_addSection? fun assignment inPart =>
    value assignment (parts part member assignment inPart)

end Scaffold.Toml
