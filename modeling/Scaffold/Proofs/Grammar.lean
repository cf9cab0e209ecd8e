/-
This file gives the grammar of JSON: a text spells a value if it has the tokens of that
value. White space and the ways to write a string or a number are behind us once there
are tokens, so that a value has its tokens in one way only. The reader of values finds
exactly the values that are spelled: no comma inside of a value is seen from outside, so
that it cuts arrays and objects where the grammar put them together.
-/

import Mathlib.Data.List.Forall2
import Scaffold.Json.Value

namespace Scaffold.Json

mutual

/-- The tokens of a value. -/
def Value.tokens : Value → List Token
  | .null => [.null]
  | .boolean value => [.boolean value]
  | .number value => [.number value]
  | .string value => [.string value]
  | .array elements => .openBracket :: elementTokens elements ++ [.closeBracket]
  | .object members => .openBrace :: pairTokens members ++ [.closeBrace]

/-- The tokens of elements, with a comma between any two. -/
def elementTokens : List Value → List Token
  | [] => []
  | [value] => value.tokens
  | value :: next :: more => value.tokens ++ .comma :: elementTokens (next :: more)

/-- The tokens of members, with a comma between any two. -/
def pairTokens : List (Text × Value) → List Token
  | [] => []
  | [(name, value)] => .string name :: .colon :: value.tokens
  | (name, value) :: next :: more =>
    .string name :: .colon :: value.tokens ++ .comma :: pairTokens (next :: more)

end

theorem pairTokens_cons {more : List (Text × Value)} (followed : more ≠ []) (name : Text)
    (value : Value) :
    pairTokens ((name, value) :: more) =
      .string name :: .colon :: value.tokens ++ .comma :: pairTokens more := by
  obtain ⟨next, rest, rfl⟩ := List.exists_cons_of_ne_nil followed
  rw [pairTokens]

/-- A member begins with its name, and then comes its value, whatever follows. -/
theorem exists_pairTokens_cons (name : Text) (value : Value) (more : List (Text × Value)) :
    ∃ behind, pairTokens ((name, value) :: more) =
      .string name :: .colon :: (value.tokens ++ behind) := by
  cases more with
  | nil => exact ⟨[], by rw [pairTokens, List.append_nil]⟩
  | cons next rest => exact ⟨_, pairTokens_cons (List.cons_ne_nil _ _) name value⟩

/-! ### Pieces between commas -/

/-- The tokens of one member. -/
def namedTokens (member : Text × Value) : List Token :=
  .string member.1 :: .colon :: member.2.tokens

theorem elementTokens_eq_intercalate (elements : List Value) :
    elementTokens elements = List.intercalate [.comma] (elements.map Value.tokens) := by
  induction elements with
  | nil => rfl
  | cons value more inductionHypothesis =>
    cases more with
    | nil => rw [elementTokens, List.map_singleton, List.intercalate_singleton]
    | cons next rest =>
      rw [elementTokens, inductionHypothesis, List.map_cons, List.map_cons, List.map_cons,
        List.intercalate_cons_cons, List.append_assoc, List.singleton_append]

theorem pairTokens_eq_intercalate (members : List (Text × Value)) :
    pairTokens members = List.intercalate [.comma] (members.map namedTokens) := by
  induction members with
  | nil => rfl
  | cons member more inductionHypothesis =>
    obtain ⟨name, value⟩ := member
    cases more with
    | nil => rw [pairTokens, List.map_singleton, List.intercalate_singleton, namedTokens]
    | cons next rest =>
      rw [pairTokens, inductionHypothesis, List.map_cons, List.map_cons, List.map_cons,
        List.intercalate_cons_cons, List.append_assoc, List.singleton_append]
      rfl

/-- No comma is seen among tokens from a depth on. -/
abbrev HidesCommas (bottom : Nat) (spelled : List Token) : Prop :=
  HoldsTogether Token.turn (· = .comma) bottom spelled

theorem HidesCommas.named {bottom : Nat} {value : Value} (hides : HidesCommas bottom value.tokens)
    (name : Text) : HidesCommas bottom (namedTokens (name, value)) :=
  ((HoldsTogether.singleton rfl (.inr rfl)).append (.singleton rfl (.inr rfl))).append hides

theorem hidesCommas_comma : HidesCommas 1 [.comma] :=
  .singleton rfl (.inl Nat.one_pos)

mutual

theorem Value.hidesCommas_tokens : ∀ value : Value, HidesCommas 0 value.tokens
  | .null | .boolean _ | .number _ | .string _ => .singleton rfl (.inr rfl)
  | .array elements => by
    refine .brackets rfl rfl rfl ?_
    rw [elementTokens_eq_intercalate]
    exact hidesCommas_comma.intercalate fun piece isPiece =>
      (hidesCommas_elements elements piece isPiece).mono (Nat.zero_le 1)
  | .object members => by
    refine .brackets rfl rfl rfl ?_
    rw [pairTokens_eq_intercalate]
    exact hidesCommas_comma.intercalate fun piece isPiece =>
      (hidesCommas_members members piece isPiece).mono (Nat.zero_le 1)

theorem hidesCommas_elements :
    ∀ elements : List Value, ∀ piece ∈ elements.map Value.tokens, HidesCommas 0 piece
  | [] => nofun
  | value :: more =>
    List.forall_mem_cons.mpr ⟨value.hidesCommas_tokens, hidesCommas_elements more⟩

theorem hidesCommas_members :
    ∀ members : List (Text × Value), ∀ piece ∈ members.map namedTokens, HidesCommas 0 piece
  | [] => nofun
  | (name, value) :: more =>
    List.forall_mem_cons.mpr ⟨value.hidesCommas_tokens.named name, hidesCommas_members more⟩

end

theorem Value.tokens_ne_nil (value : Value) : value.tokens ≠ [] := by
  cases value <;> exact List.cons_ne_nil _ _

theorem intercalate_pieces (inner : List Token) :
    List.intercalate [.comma] (pieces inner) = inner := by
  unfold pieces
  split
  · next empty => rw [empty, List.intercalate_nil]
  · exact intercalate_splitOutside (fun _ => of_decide_eq_true) 0 inner

theorem pieces_intercalate {split : List (List Token)} (solid : ∀ piece ∈ split, piece ≠ [])
    (hides : ∀ piece ∈ split, HidesCommas 0 piece) :
    pieces (List.intercalate [.comma] split) = split := by
  cases split with
  | nil => rfl
  | cons piece more =>
    have nonempty : List.intercalate [.comma] (piece :: more) ≠ [] := by
      obtain ⟨token, rest, rfl⟩ := List.exists_cons_of_ne_nil (solid piece List.mem_cons_self)
      rw [List.intercalate_cons_cons_left]
      exact List.cons_ne_nil _ _
    rw [pieces, if_neg nonempty]
    refine splitOutside_intercalate ?_ (List.cons_ne_nil _ _) hides
    exact decide_eq_true rfl

theorem pieces_elementTokens (elements : List Value) :
    pieces (elementTokens elements) = elements.map Value.tokens := by
  rw [elementTokens_eq_intercalate]
  refine pieces_intercalate (fun piece isPiece => ?_) (hidesCommas_elements elements)
  obtain ⟨element, -, rfl⟩ := List.mem_map.mp isPiece
  exact element.tokens_ne_nil

theorem pieces_pairTokens (members : List (Text × Value)) :
    pieces (pairTokens members) = members.map namedTokens := by
  rw [pairTokens_eq_intercalate]
  refine pieces_intercalate (fun piece isPiece => ?_) (hidesCommas_members members)
  obtain ⟨member, -, rfl⟩ := List.mem_map.mp isPiece
  exact List.cons_ne_nil _ _

theorem length_le_of_mem_elements {element : Value} {elements : List Value}
    (isElement : element ∈ elements) :
    element.tokens.length ≤ (elementTokens elements).length := by
  rw [elementTokens_eq_intercalate]
  exact length_le_of_mem_intercalate (List.mem_map_of_mem isElement)

theorem length_lt_of_mem_members {member : Text × Value} {members : List (Text × Value)}
    (isMember : member ∈ members) :
    member.2.tokens.length < (pairTokens members).length := by
  rw [pairTokens_eq_intercalate]
  refine Nat.lt_of_lt_of_le ?_ (length_le_of_mem_intercalate (List.mem_map_of_mem isMember))
  rw [namedTokens, List.length_cons, List.length_cons]
  omega

/-! ### Values that are read -/

theorem mapM_eq_some_iff {Item Result : Type} {read : Item → Option Result} {items : List Item}
    {results : List Result} :
    items.mapM read = some results ↔
      List.Forall₂ (fun item result => read item = some result) items results := by
  induction items generalizing results with
  | nil =>
    rw [List.mapM_nil, List.forall₂_nil_left_iff]
    exact Option.some_inj.trans eq_comm
  | cons item more inductionHypothesis =>
    rw [List.mapM_cons, List.forall₂_cons_left_iff]
    simp only [Option.bind_eq_bind, Option.bind_eq_some_iff, inductionHypothesis,
      Option.pure_def, Option.some_inj]
    constructor
    · rintro ⟨first, here, rest, later, rfl⟩
      exact ⟨first, rest, here, later, rfl⟩
    · rintro ⟨first, rest, here, later, rfl⟩
      exact ⟨first, here, rest, later, rfl⟩

/-- The member that a piece spells. -/
def readNamed? (depth : Nat) : List Token → Option (Text × Value)
  | .string name :: .colon :: value => (Value.ofTokens? depth value).map (name, ·)
  | _ => none

theorem exists_of_readNamed? {depth : Nat} {piece : List Token} {member : Text × Value}
    (found : readNamed? depth piece = some member) :
    ∃ spelled, piece = .string member.1 :: .colon :: spelled ∧
      Value.ofTokens? depth spelled = some member.2 := by
  unfold readNamed? at found
  split at found
  · obtain ⟨value, isValue, rfl⟩ := Option.map_eq_some_iff.mp found
    exact ⟨_, rfl, isValue⟩
  · cases found

namespace Value

theorem ofTokens?_openBracket_eq_some_iff {depth : Nat} {rest : List Token} {value : Value} :
    ofTokens? (depth + 1) (.openBracket :: rest) = some value ↔
      ∃ inner, rest = inner ++ [.closeBracket] ∧ ∃ elements,
        List.Forall₂ (fun piece element => ofTokens? depth piece = some element) (pieces inner)
          elements ∧ .array elements = value := by
  simp only [ofTokens?, Option.bind_eq_bind, Option.bind_eq_some_iff, mapM_eq_some_iff,
    inside?_eq_some_iff (fun _ => decide_eq_true_iff), Option.some_inj]

theorem ofTokens?_openBrace_eq_some_iff {depth : Nat} {rest : List Token} {value : Value} :
    ofTokens? (depth + 1) (.openBrace :: rest) = some value ↔
      ∃ inner, rest = inner ++ [.closeBrace] ∧ ∃ members,
        List.Forall₂ (fun piece member => readNamed? depth piece = some member) (pieces inner)
          members ∧ .object members = value := by
  have read : ofTokens? (depth + 1) (.openBrace :: rest) =
      (inside? (· = .closeBrace) rest).bind fun inner =>
        ((pieces inner).mapM (readNamed? depth)).bind fun members => some (.object members) := rfl
  simp only [read, Option.bind_eq_some_iff, mapM_eq_some_iff,
    inside?_eq_some_iff (fun _ => decide_eq_true_iff), Option.some_inj]

/-- What is read is what was spelled. -/
theorem eq_tokens_of_ofTokens? {depth : Nat} {read : List Token} {value : Value}
    (found : ofTokens? depth read = some value) : read = value.tokens := by
  -- On the depth: what stands in brackets is cut into pieces, which are read one level less deep.
  induction depth using Nat.strongRecOn generalizing read value with
  | ind depth inductionHypothesis =>
    revert found
    fun_cases ofTokens? depth read with
    | case1 | case2 | case3 | case4 =>
      rintro ⟨⟩
      rfl
    | case5 depth rest =>
      intro found
      obtain ⟨inner, rfl, elements, spelled, rfl⟩ := ofTokens?_openBracket_eq_some_iff.mp found
      have cut : pieces inner = elements.map tokens := by
        rw [← List.forall₂_eq_eq_eq, List.forall₂_map_right_iff]
        exact spelled.imp fun _ _ => inductionHypothesis depth (Nat.lt_succ_self depth)
      rw [tokens, elementTokens_eq_intercalate, ← cut, intercalate_pieces, List.cons_append]
    | case6 depth rest =>
      intro found
      obtain ⟨inner, rfl, members, spelled, rfl⟩ := ofTokens?_openBrace_eq_some_iff.mp found
      have cut : pieces inner = members.map namedTokens := by
        rw [← List.forall₂_eq_eq_eq, List.forall₂_map_right_iff]
        refine spelled.imp fun piece member isMember => ?_
        obtain ⟨spelling, rfl, isValue⟩ := exists_of_readNamed? isMember
        rw [inductionHypothesis depth (Nat.lt_succ_self depth) isValue, namedTokens]
      rw [tokens, pairTokens_eq_intercalate, ← cut, intercalate_pieces, List.cons_append]
    | case7 => nofun

/-- What was spelled is read, if the bound is no less than the number of tokens. -/
theorem ofTokens?_tokens {value : Value} {depth : Nat} (deep : value.tokens.length ≤ depth) :
    ofTokens? depth value.tokens = some value := by
  induction depth generalizing value with
  | zero => exact absurd (List.length_eq_zero_iff.mp (Nat.le_zero.mp deep)) value.tokens_ne_nil
  | succ depth inductionHypothesis =>
    cases value with
    | null | boolean | number | string => rfl
    | array elements =>
      refine ofTokens?_openBracket_eq_some_iff.mpr ⟨_, rfl, elements, ?_, rfl⟩
      rw [pieces_elementTokens, List.forall₂_map_left_iff, List.forall₂_same]
      refine fun element isElement => inductionHypothesis ?_
      have shorter := length_le_of_mem_elements isElement
      rw [tokens, List.length_append, List.length_cons, List.length_singleton] at deep
      omega
    | object members =>
      refine ofTokens?_openBrace_eq_some_iff.mpr ⟨_, rfl, members, ?_, rfl⟩
      rw [pieces_pairTokens, List.forall₂_map_left_iff, List.forall₂_same]
      intro member isMember
      have shorter := length_lt_of_mem_members isMember
      rw [tokens, List.length_append, List.length_cons, List.length_singleton] at deep
      have isValue : ofTokens? depth member.2.tokens = some member.2 :=
        inductionHypothesis (by omega)
      rw [namedTokens, readNamed?, isValue]
      rfl

/-- A text is read as a value exactly if it spells the value. -/
theorem read?_eq_some_iff {text : Text} {value : Value} :
    read? text = some value ↔ Json.tokens text = value.tokens := by
  refine ⟨eq_tokens_of_ofTokens?, fun spelled => ?_⟩
  rw [read?, spelled]
  exact ofTokens?_tokens (Nat.le_refl _)

end Value

end Scaffold.Json
