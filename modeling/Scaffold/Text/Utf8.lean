/-
This file measures texts in bytes of UTF-8, the unit in which labels and spans
are counted, and searches them.

A search leads to the first place at which the pattern occurs. Behind a text in which
no occurrence starts it leads to the same place as without that text.
-/

import Scaffold.Text.Lines

namespace Scaffold.Text

/-- The number of bytes that a text takes in UTF-8. -/
def byteLength : Text → Nat
  | [] => 0
  | c :: rest => c.utf8Size + byteLength rest

/-- The byte offset at which a pattern first occurs in a text. -/
def find? (pattern : Text) : Text → Option Nat
  | [] => if pattern = [] then some 0 else none
  | c :: rest =>
    if pattern.isPrefixOf (c :: rest) then some 0
    else (find? pattern rest).map (c.utf8Size + ·)

/-! ### Measuring -/

theorem byteLength_append (front back : Text) :
    byteLength (front ++ back) = byteLength front + byteLength back := by
  induction front with
  | nil => exact (Nat.zero_add _).symm
  | cons c rest inductionHypothesis =>
    rw [List.cons_append, byteLength, byteLength, inductionHypothesis, Nat.add_assoc]

/-- The length of a text is the number of bytes that encode it. -/
theorem size_utf8Encode (text : Text) : text.utf8Encode.size = byteLength text := by
  induction text with
  | nil => rfl
  | cons c rest inductionHypothesis =>
    rw [List.utf8Encode_cons, ByteArray.size_append, inductionHypothesis,
      List.utf8Encode_singleton, List.size_toByteArray, String.length_utf8EncodeChar]
    rfl

theorem byteLength_pos {text : Text} (nonempty : text ≠ []) : 0 < byteLength text := by
  obtain ⟨c, rest, rfl⟩ := List.exists_cons_of_ne_nil nonempty
  exact Nat.add_pos_left c.utf8Size_pos _

/-! ### Searching -/

theorem find?_of_isPrefix {pattern text : Text} (here : pattern <+: text) :
    find? pattern text = some 0 := by
  cases text with
  | nil => exact if_pos (List.prefix_nil.mp here)
  | cons c rest => rw [find?, if_pos (List.isPrefixOf_iff_prefix.mpr here)]

theorem find?_cons {pattern rest : Text} {c : Char} (elsewhere : ¬ pattern <+: c :: rest) :
    find? pattern (c :: rest) = (find? pattern rest).map (c.utf8Size + ·) := by
  rw [find?, if_neg (mt List.isPrefixOf_iff_prefix.mp elsewhere)]

/-- A search that leads somewhere leads to an occurrence. -/
theorem exists_split_of_find? {pattern text : Text} {offset : Nat}
    (found : find? pattern text = some offset) :
    ∃ before after, text = before ++ pattern ++ after ∧ offset = byteLength before := by
  induction text generalizing offset with
  | nil =>
    obtain ⟨empty, zero⟩ := Option.ite_none_right_eq_some.mp found
    exact ⟨[], [], by rw [empty]; rfl, (Option.some.inj zero).symm⟩
  | cons c rest inductionHypothesis =>
    by_cases here : pattern <+: c :: rest
    · rw [find?_of_isPrefix here] at found
      obtain ⟨after, split⟩ := here
      exact ⟨[], after, split.symm, (Option.some.inj found).symm⟩
    · rw [find?_cons here] at found
      obtain ⟨behind, foundBehind, rfl⟩ := Option.map_eq_some_iff.mp found
      obtain ⟨before, after, split, rfl⟩ := inductionHypothesis foundBehind
      exact ⟨c :: before, after, by rw [split]; rfl, rfl⟩

/-- A search leads nowhere exactly if there is no occurrence. -/
theorem find?_eq_none_iff (pattern text : Text) :
    find? pattern text = none ↔ ¬ pattern <:+: text := by
  induction text with
  | nil =>
    rw [find?, List.infix_nil]
    split <;> simp [*]
  | cons c rest inductionHypothesis =>
    rw [List.infix_cons_iff, not_or, ← inductionHypothesis]
    by_cases here : pattern <+: c :: rest
    · rw [find?_of_isPrefix here]
      exact ⟨fun none => absurd none (Option.some_ne_none 0), fun both => absurd here both.1⟩
    · rw [find?_cons here, Option.map_eq_none_iff]
      exact (and_iff_right here).symm

/-- A text can be read up to a mark that does not come earlier. -/
theorem takeWhile_ne_append {mark : Char} {front : Text} (absent : mark ∉ front) (rest : Text) :
    (front ++ mark :: rest).takeWhile (· ≠ mark) = front := by
  rw [List.takeWhile_append_of_pos, List.takeWhile_cons_of_neg, List.append_nil]
  · rw [decide_eq_true_iff]
    exact fun other => other rfl
  · exact fun c member => decide_eq_true fun same : c = mark => absent (same ▸ member)

/-- The pattern occurs in two texts put together, from a place in the first of them on. -/
def StartsIn (pattern front back : Text) : Prop :=
  ∃ before rest, front = before ++ rest ∧ rest ≠ [] ∧ pattern <+: rest ++ back

theorem startsIn_cons_iff (pattern front back : Text) (c : Char) :
    StartsIn pattern (c :: front) back ↔
      pattern <+: c :: (front ++ back) ∨ StartsIn pattern front back := by
  constructor
  · rintro ⟨before, rest, split, nonempty, occurs⟩
    cases before with
    | nil =>
      subst split
      exact Or.inl occurs
    | cons first before =>
      obtain ⟨_, split⟩ := List.cons_eq_cons.mp split
      exact Or.inr ⟨before, rest, split, nonempty, occurs⟩
  · rintro (here | ⟨before, rest, rfl, nonempty, occurs⟩)
    · exact ⟨[], c :: front, rfl, List.cons_ne_nil _ _, here⟩
    · exact ⟨c :: before, rest, rfl, nonempty, occurs⟩

/-- Behind a text in which no occurrence starts, the search goes on as if there were no such text. -/
theorem find?_append_of_not_startsIn {pattern front back : Text}
    (absent : ¬ StartsIn pattern front back) :
    find? pattern (front ++ back) = (find? pattern back).map (byteLength front + ·) := by
  induction front with
  | nil =>
    rw [List.nil_append]
    cases find? pattern back with
    | none => rfl
    | some offset => exact congrArg some (Nat.zero_add offset).symm
  | cons c rest inductionHypothesis =>
    rw [startsIn_cons_iff, not_or] at absent
    rw [List.cons_append, find?_cons absent.1, inductionHypothesis absent.2, Option.map_map]
    refine congrArg (Option.map · _) (funext fun offset => ?_)
    exact (Nat.add_assoc _ _ _).symm

/-- An occurrence that starts in the first text is found in it. -/
theorem exists_find?_append_of_startsIn {pattern front back : Text}
    (present : StartsIn pattern front back) :
    ∃ before rest, front = before ++ rest ∧ rest ≠ [] ∧ pattern <+: rest ++ back ∧
      find? pattern (front ++ back) = some (byteLength before) := by
  induction front with
  | nil =>
    obtain ⟨before, rest, split, nonempty, _⟩ := present
    exact absurd (List.append_eq_nil_iff.mp split.symm).2 nonempty
  | cons c front inductionHypothesis =>
    by_cases here : pattern <+: c :: (front ++ back)
    · exact ⟨[], c :: front, rfl, List.cons_ne_nil _ _, here, find?_of_isPrefix here⟩
    · have later := ((startsIn_cons_iff _ _ _ _).mp present).resolve_left here
      obtain ⟨before, rest, split, nonempty, occurs, found⟩ := inductionHypothesis later
      refine ⟨c :: before, rest, by rw [split]; rfl, nonempty, occurs, ?_⟩
      rw [List.cons_append, find?_cons here, found]
      rfl

end Scaffold.Text
