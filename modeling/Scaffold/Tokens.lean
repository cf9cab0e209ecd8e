/-
This file holds what the formats that are read here have in common once a text is cut
into tokens.

A list of tokens is cut at the separators that stand outside of all brackets. It is how
a reader finds the members of a list or a table without reading them first. The pieces
give back the list when the separators are put between them, and a list that was made
from pieces in this way is cut into the same pieces again, if each of them holds
together.
-/

import Scaffold.Text.Lines

namespace Scaffold

/-! ### Tokens of a text -/

/-- The token of what was read and the rest of the text, if there was something; else the text is
malformed and nothing is left of it. -/
def orMalformed {Token Value : Type} (malformed : Token) (token : Value → Token) :
    Option (Value × Text) → Token × Text
  | some (value, rest) => (token value, rest)
  | none => (malformed, [])

/-- What is left behind a token is no longer than what is left behind its first character. -/
theorem length_orMalformed_le {Token Value : Type} (malformed : Token) (token : Value → Token)
    (text : Text) (read : Option (Value × Text))
    (shorter : ∀ value rest, read = some (value, rest) → rest.length ≤ text.length) :
    (orMalformed malformed token read).2.length ≤ text.length := by
  cases read with
  | none => exact Nat.zero_le _
  | some pair => exact shorter _ _ rfl

/-! ### Brackets and separators -/

/-- What a token does to the depth of brackets. -/
inductive Turn where
  | opens
  | closes
  | stays
deriving DecidableEq

/-- The depth behind a token. Nothing closes at depth zero. -/
def Turn.depth (depth : Nat) : Turn → Nat
  | .opens => depth + 1
  | .closes => depth - 1
  | .stays => depth

/-- The pieces between the separators at depth zero, given the depth at the start. There is always at
least one piece. -/
def splitOutside {Token : Type} (turn : Token → Turn) (separates : Token → Bool) :
    Nat → List Token → List (List Token)
  | _, [] => [[]]
  | depth, token :: rest =>
    if depth = 0 ∧ separates token then [] :: splitOutside turn separates 0 rest
    else
      match splitOutside turn separates ((turn token).depth depth) rest with
      | [] => [[token]]
      | piece :: more => (token :: piece) :: more

/-- What stands between brackets, given what stands behind the one that opens: all but the last token,
which has to be the one that closes. -/
def inside? {Token : Type} (closes : Token → Bool) (behindOpen : List Token) :
    Option (List Token) :=
  if behindOpen.getLast?.any closes then some behindOpen.dropLast else none

section

variable {Token : Type} {turn : Token → Turn} {separates : Token → Bool}

/-! ### Pieces put together -/

theorem exists_splitOutside_eq_cons (depth : Nat) (tokens : List Token) :
    ∃ piece more, splitOutside turn separates depth tokens = piece :: more := by
  cases tokens with
  | nil => exact ⟨[], [], rfl⟩
  | cons token rest =>
    rw [splitOutside]
    split
    · exact ⟨_, _, rfl⟩
    · split <;> exact ⟨_, _, rfl⟩

/-- A token that is no separator goes to the front of the first piece behind it. -/
theorem splitOutside_cons_of_not {depth : Nat} {token : Token} {rest piece : List Token}
    {more : List (List Token)} (unseen : ¬ (depth = 0 ∧ separates token = true))
    (cut : splitOutside turn separates ((turn token).depth depth) rest = piece :: more) :
    splitOutside turn separates depth (token :: rest) = (token :: piece) :: more := by
  rw [splitOutside, if_neg unseen, cut]

theorem splitOutside_cons_of_separates {token : Token} (seen : separates token = true)
    (rest : List Token) :
    splitOutside turn separates 0 (token :: rest) =
      [] :: splitOutside turn separates 0 rest := by
  rw [splitOutside, if_pos ⟨rfl, seen⟩]

/-- The pieces with the separator between them are the tokens that were cut. -/
theorem intercalate_splitOutside {separator : Token}
    (only : ∀ token, separates token = true → token = separator) (depth : Nat)
    (tokens : List Token) :
    List.intercalate [separator] (splitOutside turn separates depth tokens) = tokens := by
  induction tokens generalizing depth with
  | nil => exact List.intercalate_singleton
  | cons token rest inductionHypothesis =>
    by_cases seen : depth = 0 ∧ separates token = true
    · obtain ⟨rfl, isSeparator⟩ := seen
      obtain ⟨piece, more, cut⟩ := exists_splitOutside_eq_cons 0 rest
      have behind := inductionHypothesis 0
      rw [cut] at behind
      rw [splitOutside_cons_of_separates isSeparator, cut, List.intercalate_cons_cons, behind,
        only token isSeparator]
      rfl
    · obtain ⟨piece, more, cut⟩ := exists_splitOutside_eq_cons ((turn token).depth depth) rest
      rw [splitOutside_cons_of_not seen cut, List.intercalate_cons_cons_left, ← cut,
        inductionHypothesis]

/-! ### Tokens that hold together -/

/-- From a depth on, no separator is seen among the tokens: the first piece of what stands behind
them goes on from them. -/
def HoldsTogether (turn : Token → Turn) (separates : Token → Bool) (bottom : Nat)
    (spelled : List Token) : Prop :=
  ∀ depth tail piece more, bottom ≤ depth →
    splitOutside turn separates depth tail = piece :: more →
    splitOutside turn separates depth (spelled ++ tail) = (spelled ++ piece) :: more

namespace HoldsTogether

variable {bottom : Nat}

theorem nil : HoldsTogether turn separates bottom [] :=
  fun _ _ _ _ _ cut => cut

theorem append {first second : List Token} (one : HoldsTogether turn separates bottom first)
    (two : HoldsTogether turn separates bottom second) :
    HoldsTogether turn separates bottom (first ++ second) := by
  intro depth tail piece more deep cut
  rw [List.append_assoc, List.append_assoc]
  exact one depth _ _ _ deep (two depth tail piece more deep cut)

theorem mono {higher : Nat} {spelled : List Token} (le : bottom ≤ higher)
    (together : HoldsTogether turn separates bottom spelled) :
    HoldsTogether turn separates higher spelled :=
  fun depth tail piece more deep => together depth tail piece more (Nat.le_trans le deep)

/-- What does not turn holds together inside of brackets, and outside of them if it is no
separator. -/
theorem singleton {token : Token} (stays : turn token = .stays)
    (inside : 0 < bottom ∨ separates token = false) :
    HoldsTogether turn separates bottom [token] := by
  intro depth tail piece more deep cut
  have unseen : ¬ (depth = 0 ∧ separates token = true) := by
    rintro ⟨rfl, seen⟩
    rcases inside with positive | solid
    · exact absurd deep (Nat.not_le_of_lt positive)
    · exact absurd (solid.symm.trans seen) Bool.false_ne_true
  refine splitOutside_cons_of_not unseen ?_
  rwa [stays]

/-- What holds together inside of brackets does so everywhere with brackets around it. -/
theorem brackets {opening closing : Token} {inner : List Token} (opens : turn opening = .opens)
    (closes : turn closing = .closes) (solid : separates opening = false)
    (together : HoldsTogether turn separates 1 inner) :
    HoldsTogether turn separates 0 (opening :: inner ++ [closing]) := by
  intro depth tail piece more _ cut
  have closed : splitOutside turn separates (depth + 1) (closing :: tail) =
      (closing :: piece) :: more := by
    refine splitOutside_cons_of_not (fun both => absurd both.1 (Nat.succ_ne_zero depth)) ?_
    rwa [closes]
  have unseen : ¬ (depth = 0 ∧ separates opening = true) :=
    fun both => absurd (solid.symm.trans both.2) Bool.false_ne_true
  have passed := together (depth + 1) _ _ _ (Nat.le_add_left 1 depth) closed
  rw [List.append_assoc, List.singleton_append, List.cons_append,
    splitOutside_cons_of_not unseen (by rw [opens]; exact passed)]
  simp only [List.cons_append, List.append_assoc, List.nil_append]

theorem intercalate {between : List Token} {pieces : List (List Token)}
    (gap : HoldsTogether turn separates bottom between)
    (together : ∀ piece ∈ pieces, HoldsTogether turn separates bottom piece) :
    HoldsTogether turn separates bottom (List.intercalate between pieces) := by
  induction pieces with
  | nil => exact nil
  | cons piece more inductionHypothesis =>
    obtain ⟨here, later⟩ := List.forall_mem_cons.mp together
    cases more with
    | nil => rwa [List.intercalate_singleton]
    | cons next rest =>
      rw [List.intercalate_cons_cons]
      exact (here.append gap).append (inductionHypothesis later)

end HoldsTogether

/-- Pieces that hold together are found again between the separators. -/
theorem splitOutside_intercalate {separator : Token} (seen : separates separator = true)
    {pieces : List (List Token)} (nonempty : pieces ≠ [])
    (together : ∀ piece ∈ pieces, HoldsTogether turn separates 0 piece) :
    splitOutside turn separates 0 (List.intercalate [separator] pieces) = pieces := by
  induction pieces with
  | nil => exact absurd rfl nonempty
  | cons piece more inductionHypothesis =>
    obtain ⟨here, later⟩ := List.forall_mem_cons.mp together
    cases more with
    | nil =>
      have cut := here 0 [] [] [] (Nat.le_refl 0) rfl
      rw [List.append_nil] at cut
      rw [List.intercalate_singleton, cut]
    | cons next rest =>
      have behind := inductionHypothesis (List.cons_ne_nil _ _) later
      rw [List.intercalate_cons_cons, List.append_assoc, List.singleton_append,
        here 0 _ _ _ (Nat.le_refl 0) (splitOutside_cons_of_separates seen _), behind,
        List.append_nil]

theorem length_le_of_mem_intercalate {between piece : List Token} {pieces : List (List Token)}
    (isPiece : piece ∈ pieces) : piece.length ≤ (List.intercalate between pieces).length := by
  induction pieces with
  | nil => exact absurd isPiece List.not_mem_nil
  | cons first more inductionHypothesis =>
    cases more with
    | nil =>
      refine Nat.le_of_eq ?_
      rw [List.mem_singleton.mp isPiece, List.intercalate_singleton]
    | cons next rest =>
      rw [List.intercalate_cons_cons, List.length_append, List.length_append]
      rcases List.mem_cons.mp isPiece with rfl | later
      · exact Nat.le_add_right_of_le (Nat.le_add_right _ _)
      · exact Nat.le_add_left_of_le (inductionHypothesis later)

/-! ### What stands between brackets -/

/-- What stands between brackets is all that stands in front of the one that closes. -/
theorem inside?_eq_some_iff {closes : Token → Bool} {closing : Token}
    (only : ∀ token, closes token = true ↔ token = closing) {behindOpen inner : List Token} :
    inside? closes behindOpen = some inner ↔ behindOpen = inner ++ [closing] := by
  rcases List.eq_nil_or_concat behindOpen with rfl | ⟨front, last, rfl⟩
  · exact ⟨nofun, fun ends => absurd ends.symm (List.append_ne_nil_of_right_ne_nil _ nofun)⟩
  · rw [List.concat_eq_append, inside?, List.getLast?_concat, List.dropLast_concat,
      List.append_singleton_inj, Option.any_some, Option.ite_none_right_eq_some, Option.some_inj,
      only, and_comm]

end

end Scaffold
