/-
This file says which texts compaction leaves as they are: those in which no line
ends in white space and no three newlines stand in a row. A character that says
something new in front of such a text may be put there, and compaction puts no
other, so everything that is ever built has this form.
-/

import Scaffold.Code.Trace

namespace Scaffold.Text

/-! ### The form -/

/-- A text without a blank right in front of a newline, unless the blank is a newline itself, and
without three newlines in a row. -/
structure Compacted (text : Text) : Prop where
  noTrailing : ∀ c, isBlank c = true → c ≠ '\n' → ¬ [c, '\n'] <:+: text
  noRun : ¬ ['\n', '\n', '\n'] <:+: text

theorem compacted_nil : Compacted [] := by
  refine ⟨fun c _ _ inside => ?_, fun inside => ?_⟩
  · exact List.cons_ne_nil _ _ (List.infix_nil.mp inside)
  · exact List.cons_ne_nil _ _ (List.infix_nil.mp inside)

/-- Only a character that is idle in front of a text can spoil its form. -/
theorem compacted_cons_iff (c : Char) (rest : Text) :
    Compacted (c :: rest) ↔ ¬ Idle c rest ∧ Compacted rest := by
  constructor
  · intro normal
    refine ⟨?_, fun d blank other inside => ?_, fun inside => ?_⟩
    · rintro (⟨blank, other, head⟩ | ⟨rfl, tail, rfl⟩)
      · obtain ⟨tail, rfl⟩ := List.head?_eq_some_iff.mp head
        exact normal.noTrailing c blank other ⟨[], tail, rfl⟩
      · exact normal.noRun ⟨[], tail, rfl⟩
    · exact normal.noTrailing d blank other (List.infix_cons inside)
    · exact normal.noRun (List.infix_cons inside)
  · rintro ⟨busy, normal⟩
    refine ⟨fun d blank other inside => ?_, fun inside => ?_⟩
    · rcases List.infix_cons_iff.mp inside with ⟨tail, equal⟩ | later
      · obtain ⟨rfl, rfl⟩ := List.cons_eq_cons.mp equal
        exact busy (Or.inl ⟨blank, other, rfl⟩)
      · exact normal.noTrailing d blank other later
    · rcases List.infix_cons_iff.mp inside with ⟨tail, equal⟩ | later
      · obtain ⟨rfl, rfl⟩ := List.cons_eq_cons.mp equal
        exact busy (Or.inr ⟨rfl, tail, rfl⟩)
      · exact normal.noRun later

/-! ### Compaction reaches it and keeps it -/

theorem Compacted.settle {kept : Text} (normal : Compacted kept) (c : Char) :
    Compacted (settle c kept) := by
  by_cases idle : Idle c kept
  · rw [settle_of_idle idle]
    exact normal
  · rw [settle_of_not_idle idle]
    exact (compacted_cons_iff c kept).mpr ⟨idle, normal⟩

theorem compacted_compact (text : Text) : Compacted (compact text) := by
  induction text with
  | nil => exact compacted_nil
  | cons c rest inductionHypothesis =>
    rw [compact_cons]
    exact inductionHypothesis.settle c

theorem Compacted.compact_eq {text : Text} (normal : Compacted text) : compact text = text := by
  induction text with
  | nil => rfl
  | cons c rest inductionHypothesis =>
    obtain ⟨busy, normalRest⟩ := (compacted_cons_iff c rest).mp normal
    rw [compact_cons, inductionHypothesis normalRest, settle_of_not_idle busy]

theorem compact_eq_self_iff (text : Text) : compact text = text ↔ Compacted text := by
  constructor
  · intro same
    rw [← same]
    exact compacted_compact text
  · exact Compacted.compact_eq

instance (text : Text) : Decidable (Compacted text) :=
  decidable_of_iff _ (compact_eq_self_iff text)

example : Compacted "\n\nwit\n\nis  ".toList ∧ ¬ Compacted "wit \nis".toList := by decide

end Scaffold.Text

namespace Scaffold.Code

/-! ### Everything that is built -/

/-- What a record shows as built was built from a buffer, however far the run had come. -/
theorem exists_build_of_mem_records {recorded : Nat} {marks : List (Bool × Buffer)}
    {record : Record} (member : record ∈ records recorded marks) {built : Text}
    (shown : record.built = some built) : ∃ buffer : Buffer, buffer.build = built := by
  induction marks generalizing recorded with
  | nil => exact absurd member List.not_mem_nil
  | cons mark rest inductionHypothesis =>
    obtain ⟨looks, buffer⟩ := mark
    rcases List.mem_cons.mp member with rfl | later
    · cases looks with
      | true => exact ⟨buffer, Option.some_inj.mp shown⟩
      | false => exact absurd shown.symm (Option.some_ne_none built)
    · exact inductionHypothesis later

/-- Compaction leaves no white space at the end of a line and no three newlines in a row, and changes
every text that has either. So compacting twice is compacting once, and whatever a run builds, on the
way or at its end, has this form. -/
theorem compact_normal_form :
    (∀ text : Text, Text.Compacted (Text.compact text)) ∧
    (∀ text : Text, Text.compact text = text ↔ Text.Compacted text) ∧
    (∀ text : Text, Text.compact (Text.compact text) = Text.compact text) ∧
    (∀ (steps : List Step) (buffer : Buffer),
      Text.Compacted (Step.runAll steps buffer).build) ∧
    ∀ (indent : Indent) (steps : List Step), ∀ record ∈ trace indent steps,
      ∀ built, record.built = some built → Text.Compacted built := by
  refine ⟨Text.compacted_compact, Text.compact_eq_self_iff, fun text => ?_, fun steps buffer => ?_,
    fun indent steps record member built shown => ?_⟩
  · exact (Text.compacted_compact text).compact_eq
  · exact Text.compacted_compact _
  · obtain ⟨buffer, rfl⟩ := exists_build_of_mem_records member shown
    exact Text.compacted_compact buffer.text

/-- Halfway through a run, behind a line that ends in white space and in front of another one. -/
theorem compact_normal_form_shown :
    ∃ record ∈ trace (.spaces 2) [.raw "wit \n\n\n".toList, .build, .line "is".toList],
      record.built = some "wit\n\n".toList ∧ Text.Compacted "wit\n\n".toList := by
  have member : ⟨0, [], some "wit\n\n".toList⟩ ∈
      trace (.spaces 2) [.raw "wit \n\n\n".toList, .build, .line "is".toList] :=
    List.mem_cons_of_mem _ List.mem_cons_self
  exact ⟨_, member, rfl, compact_normal_form.2.2.2.2 _ _ _ member _ rfl⟩

end Scaffold.Code
