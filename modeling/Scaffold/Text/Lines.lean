/-
This file holds texts: which characters are blank, how a text is trimmed, and how it
is cut into lines and put together again.

Blank is the Unicode property White_Space: twenty-five characters, the newline
among them. It is wider than the white space of the standard library, which
knows four. Only the newline character ends a line; a carriage return is an ordinary
blank character.

Lines put together again give the text, a newline is a seam between two lists of
lines, and a text is either one line or a line in front of a shorter text.
-/

namespace Scaffold

/-- A text is the list of its characters. -/
abbrev Text := List Char

/-- Whether a code point lies in one of the closed ranges. -/
def inRanges (ranges : List (Nat × Nat)) (code : Nat) : Bool :=
  ranges.any fun range => range.1 ≤ code && code ≤ range.2

namespace Text

/-! ### White space -/

/-- The closed ranges of blank code points, ascending and apart. -/
def blankRanges : List (Nat × Nat) :=
  [(0x09, 0x0D), (0x20, 0x20), (0x85, 0x85), (0xA0, 0xA0), (0x1680, 0x1680), (0x2000, 0x200A),
   (0x2028, 0x2029), (0x202F, 0x202F), (0x205F, 0x205F), (0x3000, 0x3000)]

/-- Whether a character is white space. -/
def isBlank (c : Char) : Bool :=
  inRanges blankRanges c.toNat

/-- Whether a text holds nothing but white space. -/
def allBlank (text : Text) : Bool :=
  text.all isBlank

/-- Some character of the text is not white space. -/
def HasContent (text : Text) : Prop :=
  ∃ c ∈ text, isBlank c = false

theorem hasContent_iff (text : Text) : HasContent text ↔ allBlank text = false := by
  simp only [HasContent, allBlank, List.all_eq_false, Bool.not_eq_true]

instance (text : Text) : Decidable (HasContent text) :=
  decidable_of_iff _ (hasContent_iff text).symm

/-- A text without its leading white space. -/
def trimStart (text : Text) : Text :=
  text.dropWhile isBlank

/-- A text without its trailing white space. -/
def trimEnd : Text → Text
  | [] => []
  | c :: rest =>
    let kept := trimEnd rest
    if kept = [] ∧ isBlank c then [] else c :: kept

/-- A text without the white space around it. -/
def trim (text : Text) : Text :=
  trimEnd (trimStart text)

/-! ### Blanks in a line -/

/-- A line of white space only. -/
def BlankLine (line : Text) : Prop :=
  '\n' ∉ line ∧ allBlank line = true

theorem allBlank_cons (c : Char) (rest : Text) :
    allBlank (c :: rest) = (isBlank c && allBlank rest) := rfl

theorem allBlank_replicate (width : Nat) : allBlank (List.replicate width ' ') = true := by
  refine List.all_eq_true.mpr fun c member => ?_
  rw [List.eq_of_mem_replicate member]
  decide

theorem blankLine_replicate (width : Nat) : BlankLine (List.replicate width ' ') :=
  ⟨fun member => absurd (List.eq_of_mem_replicate member) (by decide), allBlank_replicate width⟩

theorem trimEnd_eq_nil_iff (text : Text) : trimEnd text = [] ↔ allBlank text = true := by
  induction text with
  | nil => exact ⟨fun _ => rfl, fun _ => rfl⟩
  | cons c rest inductionHypothesis =>
    rw [trimEnd, allBlank_cons, Bool.and_eq_true, ← inductionHypothesis]
    by_cases blank : trimEnd rest = [] ∧ isBlank c = true
    · rw [if_pos blank]
      exact ⟨fun _ => blank.symm, fun _ => rfl⟩
    · rw [if_neg blank]
      exact ⟨fun equal => absurd equal (List.cons_ne_nil _ _), fun both => absurd both.symm blank⟩

theorem trimEnd_cons {c : Char} {rest : Text} (content : allBlank (c :: rest) = false) :
    trimEnd (c :: rest) = c :: trimEnd rest := by
  rw [trimEnd, if_neg]
  rintro ⟨blank, blankHere⟩
  rw [allBlank_cons, (trimEnd_eq_nil_iff rest).mp blank, blankHere] at content
  cases content

theorem trimEnd_of_plain {text : Text} (plain : ∀ c ∈ text, isBlank c = false) :
    trimEnd text = text := by
  induction text with
  | nil => rfl
  | cons c rest inductionHypothesis =>
    obtain ⟨plainHere, plainRest⟩ := List.forall_mem_cons.mp plain
    rw [trimEnd_cons (by rw [allBlank_cons, plainHere, Bool.false_and]),
      inductionHypothesis plainRest]

theorem trimEnd_isPrefix (text : Text) : trimEnd text <+: text := by
  induction text with
  | nil => exact List.prefix_rfl
  | cons c rest inductionHypothesis =>
    rw [trimEnd]
    split
    · exact List.nil_prefix
    · exact (List.prefix_cons_inj c).mpr inductionHypothesis

theorem notMem_trimEnd {c : Char} {text : Text} (absent : c ∉ text) : c ∉ trimEnd text :=
  fun member => absent ((trimEnd_isPrefix text).subset member)

/-- Trimming a text with content at its back does not reach the front. -/
theorem trimEnd_append (front : Text) {back : Text} (content : trimEnd back ≠ []) :
    trimEnd (front ++ back) = front ++ trimEnd back := by
  induction front with
  | nil => rfl
  | cons c rest inductionHypothesis =>
    have remains : rest ++ trimEnd back ≠ [] := by
      rw [Ne, List.append_eq_nil_iff]
      exact fun both => content both.2
    rw [List.cons_append, trimEnd, inductionHypothesis, if_neg fun both => remains both.1]
    rfl

theorem trimEnd_append_of_allBlank (front : Text) {back : Text} (blank : allBlank back = true) :
    trimEnd (front ++ back) = trimEnd front := by
  induction front with
  | nil => exact (trimEnd_eq_nil_iff back).mpr blank
  | cons c rest inductionHypothesis => rw [List.cons_append, trimEnd, inductionHypothesis, trimEnd]

theorem trimEnd_trimEnd (text : Text) : trimEnd (trimEnd text) = trimEnd text := by
  induction text with
  | nil => rfl
  | cons c rest inductionHypothesis =>
    by_cases blank : trimEnd rest = [] ∧ isBlank c = true
    · rw [trimEnd, if_pos blank]
      rfl
    · rw [trimEnd, if_neg blank, trimEnd, inductionHypothesis, if_neg blank]

theorem trimEnd_append_trimEnd (front back : Text) :
    trimEnd (front ++ trimEnd back) = trimEnd (front ++ back) := by
  by_cases content : trimEnd back = []
  · rw [content, List.append_nil, trimEnd_append_of_allBlank front
      ((trimEnd_eq_nil_iff back).mp content)]
  · rw [trimEnd_append front content,
      trimEnd_append front (by rw [trimEnd_trimEnd]; exact content), trimEnd_trimEnd]

/-! ### Lines -/

/-- The lines of a text: what stands between its newlines. There is always at least one. -/
def lines : Text → List Text
  | [] => [[]]
  | c :: rest =>
    if c = '\n' then [] :: lines rest
    else
      match lines rest with
      | [] => [[c]]
      | line :: more => (c :: line) :: more

/-- Lines put side by side with a newline between any two. -/
def joinLines : List Text → Text
  | [] => []
  | [line] => line
  | line :: more => line ++ '\n' :: joinLines more

/-- The lines of a text, each with the newline that ends it. Only the last one may lack its newline,
and no line is empty. -/
def wholeLines : Text → List Text
  | [] => []
  | c :: rest =>
    if c = '\n' then [c] :: wholeLines rest
    else
      match wholeLines rest with
      | [] => [[c]]
      | line :: more => (c :: line) :: more

/-! ### Cutting at newlines -/

theorem lines_newline (rest : Text) : lines ('\n' :: rest) = [] :: lines rest := by
  rw [lines, if_pos rfl]

theorem lines_ne_nil (text : Text) : lines text ≠ [] := by
  cases text with
  | nil => exact List.cons_ne_nil _ _
  | cons c rest =>
    rw [lines]
    split
    · exact List.cons_ne_nil _ _
    · split <;> exact List.cons_ne_nil _ _

theorem lines_cons (c : Char) (rest line : Text) (more : List Text) (other : c ≠ '\n')
    (cut : lines rest = line :: more) : lines (c :: rest) = (c :: line) :: more := by
  rw [lines, if_neg other, cut]

/-- A newline is a seam: the lines in front of it and the lines behind it do not mix. -/
theorem lines_append_newline (front back : Text) :
    lines (front ++ '\n' :: back) = lines front ++ lines back := by
  induction front with
  | nil => exact lines_newline back
  | cons c rest inductionHypothesis =>
    obtain ⟨line, more, cut⟩ := List.exists_cons_of_ne_nil (lines_ne_nil rest)
    rw [cut, List.cons_append] at inductionHypothesis
    by_cases newline : c = '\n'
    · rw [newline, List.cons_append, lines_newline, inductionHypothesis, lines_newline, cut]
      rfl
    · rw [List.cons_append, lines_cons c _ _ _ newline inductionHypothesis,
        lines_cons c _ _ _ newline cut]
      rfl

theorem lines_of_notMem {line : Text} (whole : '\n' ∉ line) : lines line = [line] := by
  induction line with
  | nil => rfl
  | cons c rest inductionHypothesis =>
    rw [List.mem_cons, not_or] at whole
    exact lines_cons c rest rest [] (Ne.symm whole.1) (inductionHypothesis whole.2)

theorem notMem_of_mem_lines {text line : Text} (member : line ∈ lines text) : '\n' ∉ line := by
  induction text generalizing line with
  | nil =>
    rw [List.mem_singleton.mp member]
    exact List.not_mem_nil
  | cons c rest inductionHypothesis =>
    by_cases newline : c = '\n'
    · rw [newline, lines_newline, List.mem_cons] at member
      rcases member with rfl | later
      · exact List.not_mem_nil
      · exact inductionHypothesis later
    · obtain ⟨first, more, cut⟩ := List.exists_cons_of_ne_nil (lines_ne_nil rest)
      rw [lines_cons c rest first more newline cut, List.mem_cons] at member
      rw [cut] at inductionHypothesis
      rcases member with rfl | later
      · rw [List.mem_cons, not_or]
        exact ⟨Ne.symm newline, inductionHypothesis List.mem_cons_self⟩
      · exact inductionHypothesis (List.mem_cons_of_mem _ later)

/-! ### Putting lines together -/

theorem joinLines_cons (line : Text) (more : List Text) (nonempty : more ≠ []) :
    joinLines (line :: more) = line ++ '\n' :: joinLines more := by
  cases more with
  | nil => exact absurd rfl nonempty
  | cons next rest => rw [joinLines]; exact List.cons_ne_nil _ _

theorem joinLines_lines (text : Text) : joinLines (lines text) = text := by
  induction text with
  | nil => rfl
  | cons c rest inductionHypothesis =>
    by_cases newline : c = '\n'
    · rw [newline, lines_newline, joinLines_cons _ _ (lines_ne_nil rest), inductionHypothesis]
      rfl
    · obtain ⟨line, more, cut⟩ := List.exists_cons_of_ne_nil (lines_ne_nil rest)
      rw [lines_cons c rest line more newline cut]
      rw [cut] at inductionHypothesis
      cases more with
      | nil => exact congrArg (c :: ·) inductionHypothesis
      | cons next later =>
        rw [joinLines_cons _ _ (List.cons_ne_nil _ _)] at inductionHypothesis ⊢
        rw [← inductionHypothesis, List.cons_append]

/-- To show something of every text, show it of one line without a newline, and of a line in front
of a text of which it holds. -/
@[elab_as_elim]
theorem lineInduction {motive : Text → Prop} (last : ∀ tail, '\n' ∉ tail → motive tail)
    (line : ∀ line rest, '\n' ∉ line → motive rest → motive (line ++ '\n' :: rest))
    (text : Text) : motive text := by
  have joined (cut : List Text) (nonempty : cut ≠ []) (whole : ∀ piece ∈ cut, '\n' ∉ piece) :
      motive (joinLines cut) := by
    induction cut with
    | nil => exact absurd rfl nonempty
    | cons first more inductionHypothesis =>
      have firstWhole := whole first List.mem_cons_self
      by_cases single : more = []
      · rw [single]
        exact last first firstWhole
      · rw [joinLines_cons first more single]
        exact line first _ firstWhole (inductionHypothesis single
          fun piece member => whole piece (List.mem_cons_of_mem _ member))
  rw [← joinLines_lines text]
  exact joined (lines text) (lines_ne_nil text) fun _ member => notMem_of_mem_lines member

/-- Lines put side by side, each with a newline behind it. -/
def terminated : List Text → Text
  | [] => []
  | line :: rest => line ++ '\n' :: terminated rest

theorem terminated_append (front back : List Text) :
    terminated (front ++ back) = terminated front ++ terminated back := by
  induction front with
  | nil => rfl
  | cons line rest inductionHypothesis =>
    rw [List.cons_append, terminated, terminated, inductionHypothesis, List.append_assoc,
      List.cons_append]

theorem terminated_eq_joinLines (cut : List Text) (nonempty : cut ≠ []) :
    terminated cut = joinLines cut ++ ['\n'] := by
  induction cut with
  | nil => exact absurd rfl nonempty
  | cons line more inductionHypothesis =>
    by_cases single : more = []
    · rw [single]
      rfl
    · rw [joinLines_cons line more single, terminated, inductionHypothesis single,
        List.append_assoc, List.cons_append]

theorem lines_terminated_append (cut : List Text) (whole : ∀ line ∈ cut, '\n' ∉ line)
    (tail : Text) : lines (terminated cut ++ tail) = cut ++ lines tail := by
  induction cut with
  | nil => rfl
  | cons line rest inductionHypothesis =>
    rw [terminated, List.append_assoc, List.cons_append, lines_append_newline,
      lines_of_notMem (whole line List.mem_cons_self),
      inductionHypothesis fun piece member => whole piece (List.mem_cons_of_mem _ member)]
    rfl

theorem wholeLines_append_newline {line : Text} (whole : '\n' ∉ line) (rest : Text) :
    wholeLines (line ++ '\n' :: rest) = (line ++ ['\n']) :: wholeLines rest := by
  induction line with
  | nil => rw [List.nil_append, wholeLines, if_pos rfl]; rfl
  | cons c later inductionHypothesis =>
    rw [List.mem_cons, not_or] at whole
    rw [List.cons_append, wholeLines, if_neg (Ne.symm whole.1), inductionHypothesis whole.2]
    rfl

theorem wholeLines_of_notMem {line : Text} (whole : '\n' ∉ line) (nonempty : line ≠ []) :
    wholeLines line = [line] := by
  induction line with
  | nil => exact absurd rfl nonempty
  | cons c rest inductionHypothesis =>
    rw [List.mem_cons, not_or] at whole
    rw [wholeLines, if_neg (Ne.symm whole.1)]
    by_cases single : rest = []
    · rw [single]
      rfl
    · rw [inductionHypothesis whole.2 single]

theorem flatten_wholeLines (text : Text) : (wholeLines text).flatten = text := by
  induction text with
  | nil => rfl
  | cons c rest inductionHypothesis =>
    rw [wholeLines]
    split
    · rw [List.flatten_cons, inductionHypothesis]
      rfl
    · cases cut : wholeLines rest with
      | nil =>
        rw [cut] at inductionHypothesis
        rw [← inductionHypothesis]
        rfl
      | cons line more =>
        rw [cut] at inductionHypothesis
        rw [← inductionHypothesis]
        rfl

end Text

end Scaffold
