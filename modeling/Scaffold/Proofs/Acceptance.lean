/-
This file proves which JSON objects are read as options, what is read from them, and
for which fault any other object is turned away.

Members that are acceptable have the same tokens as the members of the options that
they give, and these are known to be read back. So the reader comes to the first member
that offends with just the fields in front of it seen, and what it does there is decided
by that member alone.
-/

import Mathlib.Data.List.Induction
import Mathlib.Data.List.Nodup
import Mathlib.Data.Set.List
import Scaffold.Proofs.Grammar
import Scaffold.Proofs.ReadBack
import Scaffold.Register

namespace Scaffold.Scalar

open Json (Token Value)
open Schema (Fault Wanted)

/-! ### Members that are accepted -/

/-- A field takes null, and a value of its own kind. -/
def Field.Accepts : Field → Value → Prop
  | _, .null => True
  | .text _, .string _ => True
  | .flag _, .boolean _ => True
  | _, _ => False

/-- What a field wants. -/
def Field.wanted : Field → Wanted
  | .text _ => .text
  | .flag _ => .boolean

/-- All names are known, none comes twice, and every field takes its value. -/
structure Acceptable (members : List (Text × Value)) : Prop where
  known : ∀ name ∈ members.map Prod.fst, name ∈ Field.names
  distinct : (members.map Prod.fst).Nodup
  fitting : ∀ (field : Field) (value : Value), (field.name, value) ∈ members → field.Accepts value

/-- The fault of a member that stands behind members of the given names. A name that is unknown or
repeated comes before the value. -/
inductive Offends (earlier : List Text) : Text × Value → Fault → Prop
  | unknown {name : Text} {value : Value} (strange : name ∉ Field.names) :
      Offends earlier (name, value) (.unknownField name Field.names)
  | repeated {field : Field} {value : Value} (repeats : field.name ∈ earlier) :
      Offends earlier (field.name, value) (.duplicateField field.name)
  | misfit {field : Field} {value : Value} (fresh : field.name ∉ earlier)
      (unfit : ¬ field.Accepts value) :
      Offends earlier (field.name, value) (.wrongKind (foundValue value) field.wanted)

/-- The options hold the values that members give, and nothing else. Null is as good as absent. -/
structure Options.GivenBy (options : Options) (members : List (Text × Value)) : Prop where
  texts : ∀ field text, options.text? field = some text ↔
    ((Field.text field).name, .string text) ∈ members
  flags : ∀ field flag, options.flag? field = some flag ↔
    ((Field.flag field).name, .boolean flag) ∈ members

/-- Members that say the same: in another order, and with null given for fields that are absent
otherwise. -/
inductive Restates : List (Text × Value) → List (Text × Value) → Prop
  | reorder {members others : List (Text × Value)} (perm : members.Perm others) :
      Restates members others
  | addNull {members : List (Text × Value)} {field : Field}
      (absent : field.name ∉ members.map Prod.fst) :
      Restates members ((field.name, .null) :: members)
  | dropNull {members : List (Text × Value)} {name : Text} :
      Restates ((name, .null) :: members) members
  | trans {members others more : List (Text × Value)} (first : Restates members others)
      (second : Restates others more) : Restates members more

/-- A value that stands for a field: the one of its member, or null if there is none. -/
def StandsFor (members : List (Text × Value)) (field : Field) (value : Value) : Prop :=
  (field.name, value) ∈ members ∨ (value = .null ∧ field.name ∉ members.map Prod.fst)

/-! ### Names of fields -/

theorem Field.name_injective : Function.Injective Field.name := by
  intro first second same
  have found := congrArg ofName? same
  rwa [ofName?_name, ofName?_name, Option.some_inj] at found

theorem Field.ofName?_eq_none {name : Text} (strange : name ∉ Field.names) :
    ofName? name = none := by
  rw [ofName?, List.find?_eq_none]
  intro field member same
  exact strange (of_decide_eq_true same ▸ List.mem_map_of_mem member)

theorem Field.exists_of_mem_names {name : Text} (known : name ∈ Field.names) :
    ∃ field : Field, field.name = name := by
  obtain ⟨field, -, same⟩ := List.mem_map.mp known
  exact ⟨field, same⟩

/-! ### Acceptable members -/

namespace Acceptable

variable {members others : List (Text × Value)}

theorem nil : Acceptable [] :=
  ⟨nofun, List.nodup_nil, nofun⟩

/-- A name has one value. -/
theorem value_unique (acceptable : Acceptable members) {name : Text} {first second : Value}
    (one : (name, first) ∈ members) (two : (name, second) ∈ members) : first = second := by
  let register : Register Value := ⟨members, acceptable.distinct⟩
  have found := (register.get?_eq_some_iff name first).mpr one
  rw [(register.get?_eq_some_iff name second).mpr two] at found
  exact (Option.some_inj.mp found).symm

theorem perm (acceptable : Acceptable members) (perm : members.Perm others) :
    Acceptable others where
  known name member := acceptable.known name ((perm.map Prod.fst).mem_iff.mpr member)
  distinct := (perm.map Prod.fst).nodup_iff.mp acceptable.distinct
  fitting field value member := acceptable.fitting field value (perm.mem_iff.mpr member)

theorem cons_iff {field : Field} {value : Value} :
    Acceptable ((field.name, value) :: members) ↔
      field.name ∉ members.map Prod.fst ∧ field.Accepts value ∧ Acceptable members := by
  constructor
  · intro acceptable
    obtain ⟨fresh, distinct⟩ := List.nodup_cons.mp acceptable.distinct
    exact ⟨fresh, acceptable.fitting field value List.mem_cons_self,
      fun name member => acceptable.known name (List.mem_cons_of_mem _ member), distinct,
      fun field value member => acceptable.fitting field value (List.mem_cons_of_mem _ member)⟩
  · rintro ⟨fresh, accepts, acceptable⟩
    refine ⟨List.forall_mem_cons.mpr ⟨List.mem_map_of_mem field.mem_all, acceptable.known⟩,
      List.nodup_cons.mpr ⟨fresh, acceptable.distinct⟩, fun other given member => ?_⟩
    rcases List.mem_cons.mp member with same | member
    · obtain ⟨sameName, rfl⟩ := Prod.mk.inj same
      rwa [Field.name_injective sameName]
    · exact acceptable.fitting other given member

/-- The fields that acceptable members are for. -/
theorem exists_fields (acceptable : Acceptable members) :
    ∃ fields : List Field, fields.Nodup ∧ members.map Prod.fst = fields.map Field.name := by
  have inRange : members.map Prod.fst ∈ Set.range (List.map Field.name) := by
    rw [Set.range_list_map]
    exact fun name member => Field.exists_of_mem_names (acceptable.known name member)
  obtain ⟨fields, names⟩ := inRange
  exact ⟨fields, List.Nodup.of_map Field.name (names ▸ acceptable.distinct), names.symm⟩

/-- Members are acceptable, or there is a first one that offends. -/
theorem or_exists_offends (members : List (Text × Value)) :
    Acceptable members ∨ ∃ before member after fault, members = before ++ member :: after ∧
      Acceptable before ∧ Offends (before.map Prod.fst) member fault := by
  -- On the members from the last one back: what is in front decides before the last one does.
  induction members using List.reverseRecOn with
  | nil => exact Or.inl nil
  | append_singleton front last inductionHypothesis =>
    rcases inductionHypothesis with
      acceptable | ⟨before, member, after, fault, rfl, acceptable, offends⟩
    · obtain ⟨name, value⟩ := last
      by_cases known : name ∈ Field.names
      · obtain ⟨field, rfl⟩ := Field.exists_of_mem_names known
        by_cases repeats : field.name ∈ front.map Prod.fst
        · exact Or.inr ⟨front, _, [], _, rfl, acceptable, .repeated repeats⟩
        · by_cases accepts : field.Accepts value
          · refine Or.inl (perm (cons_iff.mpr ⟨repeats, accepts, acceptable⟩) ?_)
            exact (List.perm_append_singleton _ _).symm
          · exact Or.inr ⟨front, _, [], _, rfl, acceptable, .misfit repeats accepts⟩
      · exact Or.inr ⟨front, _, [], _, rfl, acceptable, .unknown known⟩
    · exact Or.inr ⟨before, member, after ++ [last], fault, by simp, acceptable, offends⟩

end Acceptable

/-! ### The options that members give -/

/-- The text that a value is. -/
def textOf? : Value → Option Text
  | .string text => some text
  | _ => none

/-- The truth value that a value is. -/
def flagOf? : Value → Option Bool
  | .boolean flag => some flag
  | _ => none

theorem textOf?_eq_some_iff {value : Value} {text : Text} :
    textOf? value = some text ↔ value = .string text := by
  cases value <;> simp [textOf?]

theorem flagOf?_eq_some_iff {value : Value} {flag : Bool} :
    flagOf? value = some flag ↔ value = .boolean flag := by
  cases value <;> simp [flagOf?]

theorem exists_givenBy {members : List (Text × Value)} (acceptable : Acceptable members) :
    ∃ options : Options, options.GivenBy members := by
  let register : Register Value := ⟨members, acceptable.distinct⟩
  let texts (field : TextField) := (register.get? (Field.text field).name).bind textOf?
  let flags (field : FlagField) := (register.get? (Field.flag field).name).bind flagOf?
  refine ⟨({} : Options).fillAll texts flags Field.all, fun field text => ?_, fun field flag => ?_⟩
  · have empty : ({} : Options).text? field = none := by cases field <;> rfl
    rw [Options.text?_fillAll, if_pos (Field.mem_all _), empty, Option.or_none,
      Option.bind_eq_some_iff]
    simp only [register.get?_eq_some_iff, textOf?_eq_some_iff, exists_eq_right, register]
  · have empty : ({} : Options).flag? field = none := by cases field <;> rfl
    rw [Options.flag?_fillAll, if_pos (Field.mem_all _), empty, Option.or_none,
      Option.bind_eq_some_iff]
    simp only [register.get?_eq_some_iff, flagOf?_eq_some_iff, exists_eq_right, register]

namespace Options.GivenBy

variable {options : Options} {members : List (Text × Value)}

/-- An accepted value is one token, and the field of the options has the same. -/
theorem tokens_eq (given : options.GivenBy members) (acceptable : Acceptable members)
    {field : Field} {value : Value} (member : (field.name, value) ∈ members) :
    value.tokens = [options.token field] := by
  have accepts := acceptable.fitting field value member
  cases field with
  | text field =>
    cases value with
    | null =>
      cases present : options.text? field with
      | none => rw [token, present]; rfl
      | some text =>
        cases acceptable.value_unique member ((given.texts field text).mp present)
    | string text => rw [token, (given.texts field text).mpr member]; rfl
    | _ => exact accepts.elim
  | flag field =>
    cases value with
    | null =>
      cases present : options.flag? field with
      | none => rw [token, present]; rfl
      | some flag =>
        cases acceptable.value_unique member ((given.flags field flag).mp present)
    | boolean flag => rw [token, (given.flags field flag).mpr member]; rfl
    | _ => exact accepts.elim

theorem token_of_notMem (given : options.GivenBy members) {field : Field}
    (absent : field.name ∉ members.map Prod.fst) : options.token field = .null := by
  cases field with
  | text field =>
    cases present : options.text? field with
    | none => rw [token, present]; rfl
    | some text =>
      exact absurd (List.mem_map_of_mem ((given.texts field text).mp present)) absent
  | flag field =>
    cases present : options.flag? field with
    | none => rw [token, present]; rfl
    | some flag =>
      exact absurd (List.mem_map_of_mem ((given.flags field flag).mp present)) absent

end Options.GivenBy

/-! ### Reading members -/

section Tokens

variable {options : Options} {members : List (Text × Value)} {fields : List Field}
variable (names : members.map Prod.fst = fields.map Field.name)
variable (tokens : ∀ (field : Field) (value : Value), (field.name, value) ∈ members →
  value.tokens = [options.token field])
include names tokens

/-- Members have the tokens of options that have the same token for each of them. -/
theorem pairTokens_eq_members : Json.pairTokens members = options.members fields := by
  induction fields generalizing members with
  | nil => rw [List.map_eq_nil_iff.mp names]; rfl
  | cons field more inductionHypothesis =>
    obtain ⟨⟨_, value⟩, rest, rfl, rfl, restNames⟩ := List.map_eq_cons_iff.mp names
    have here := tokens field value List.mem_cons_self
    have later := inductionHypothesis restNames fun field value member =>
      tokens field value (List.mem_cons_of_mem _ member)
    cases rest with
    | nil =>
      rw [List.map_eq_nil_iff.mp restNames.symm, Json.pairTokens, here]
      rfl
    | cons next rest =>
      obtain ⟨second, more, rfl, _⟩ := List.map_eq_cons_iff.mp restNames.symm
      rw [Json.pairTokens, here, later]
      rfl

/-- In front of other members there is a comma behind each. -/
theorem pairTokens_append (next : Text × Value) (after : List (Text × Value)) :
    Json.pairTokens (members ++ next :: after) =
      options.leadingMembers fields ++ Json.pairTokens (next :: after) := by
  induction fields generalizing members with
  | nil => rw [List.map_eq_nil_iff.mp names]; rfl
  | cons field more inductionHypothesis =>
    obtain ⟨⟨_, value⟩, rest, rfl, rfl, restNames⟩ := List.map_eq_cons_iff.mp names
    have here := tokens field value List.mem_cons_self
    have later := inductionHypothesis restNames fun field value member =>
      tokens field value (List.mem_cons_of_mem _ member)
    have followed : rest ++ next :: after ≠ [] :=
      List.append_ne_nil_of_right_ne_nil _ (List.cons_ne_nil _ _)
    rw [List.cons_append, Json.pairTokens_cons followed, here, later]
    rfl

end Tokens

namespace Options

theorem ofTokens_object {members : List (Text × Value)} (nonempty : members ≠ []) :
    ofTokens (Value.object members).tokens =
      readMembers [] {} (Json.pairTokens members ++ [.closeBrace]) := by
  obtain ⟨⟨name, value⟩, more, rfl⟩ := List.exists_cons_of_ne_nil nonempty
  obtain ⟨behind, tokens⟩ := Json.exists_pairTokens_cons name value more
  rw [Value.tokens, tokens]
  rfl

/-- What holds nothing but the given members is what they give. -/
theorem ReadSoFar.eq_of_givenBy {source options : Options} {seen : List Field}
    {members : List (Text × Value)} (soFar : source.ReadSoFar seen options)
    (given : source.GivenBy members)
    (all : ∀ field : Field, field.name ∈ members.map Prod.fst → field ∈ seen) :
    options = source := by
  refine eq_of_token fun field => ?_
  rw [soFar]
  split
  · rfl
  · next unseen => rw [given.token_of_notMem (mt (all field) unseen)]

/-- Acceptable members are read as the options that they give. -/
theorem ofTokens_of_givenBy {options : Options} {members : List (Text × Value)}
    (acceptable : Acceptable members) (given : options.GivenBy members) :
    ofTokens (Value.object members).tokens = .ok options := by
  obtain ⟨fields, distinct, names⟩ := acceptable.exists_fields
  have all (field : Field) (member : field.name ∈ members.map Prod.fst) : field ∈ fields := by
    rw [names] at member
    exact (List.mem_map_of_injective Field.name_injective).mp member
  by_cases empty : members = []
  · subst empty
    have same : {} = options := (ReadSoFar.nothing options).eq_of_givenBy given nofun
    rw [← same]
    rfl
  · have nonempty : fields ≠ [] := by
      rintro rfl
      exact empty (List.map_eq_nil_iff.mp names)
    obtain ⟨read, done, soFar⟩ := (ReadSoFar.nothing options).readMembers nonempty distinct
      fun _ _ => List.not_mem_nil
    have complete : read = options := soFar.eq_of_givenBy given fun field member =>
      List.mem_append_left _ (List.mem_reverse.mpr (all field member))
    rw [ofTokens_object empty, pairTokens_eq_members names fun _ _ => given.tokens_eq acceptable,
      done, complete]

/-! ### The first fault -/

theorem assign_of_not_accepts {field : Field} {value : Value} (unfit : ¬ field.Accepts value)
    (options : Options) :
    options.assign field (foundValue value) =
      .error (.wrongKind (foundValue value) field.wanted) := by
  cases field with
  | text field =>
    cases value with
    | null => exact absurd trivial unfit
    | string text => exact absurd trivial unfit
    | number value => cases value <;> rfl
    | _ => rfl
  | flag field =>
    cases value with
    | null => exact absurd trivial unfit
    | boolean flag => exact absurd trivial unfit
    | number value => cases value <;> rfl
    | _ => rfl

/-- The first token of a value shows what the value is. -/
theorem exists_tokens_cons (value : Value) :
    ∃ first rest, value.tokens = first :: rest ∧ found? first = some (foundValue value) := by
  cases value with
  | number value => cases value <;> exact ⟨_, _, rfl, rfl⟩
  | _ => exact ⟨_, _, rfl, rfl⟩

/-- A member that offends is as far as reading goes. -/
theorem readMembers_of_offends {earlier : List Text} {member : Text × Value} {fault : Fault}
    (offends : Offends earlier member fault) {seen : List Field}
    (same : ∀ field : Field, field ∈ seen ↔ field.name ∈ earlier) (options : Options)
    (after : List (Text × Value)) (rest : List Token) :
    readMembers seen options (Json.pairTokens (member :: after) ++ rest) =
      .error (.unfit fault) := by
  obtain ⟨name, value⟩ := member
  obtain ⟨behind, tokens⟩ := Json.exists_pairTokens_cons name value after
  rw [tokens]
  cases offends with
  | unknown strange =>
    rw [List.cons_append, readMembers, Field.ofName?_eq_none strange]
  | @repeated field _ repeats =>
    have known : field ∈ seen := (same field).mpr repeats
    rw [List.cons_append, readMembers, Field.ofName?_name]
    exact if_pos known
  | @misfit field _ fresh unfit =>
    have unseen : field ∉ seen := mt (same field).mp fresh
    obtain ⟨first, others, cut, found⟩ := exists_tokens_cons value
    have rejected : options.assignToken field first =
        .error (.unfit (.wrongKind (foundValue value) field.wanted)) := by
      rw [assignToken, found]
      simp only [assign_of_not_accepts unfit]
    rw [cut, List.cons_append, readMembers, Field.ofName?_name]
    simp only [if_neg unseen, List.cons_append, rejected]

theorem ofTokens_of_offends {before after : List (Text × Value)} {member : Text × Value}
    {fault : Fault} (acceptable : Acceptable before)
    (offends : Offends (before.map Prod.fst) member fault) :
    ofTokens (Value.object (before ++ member :: after)).tokens = .error (.unfit fault) := by
  obtain ⟨fields, distinct, names⟩ := acceptable.exists_fields
  obtain ⟨source, given⟩ := exists_givenBy acceptable
  obtain ⟨next, -, reads⟩ := (ReadSoFar.nothing source).readMembers_leading distinct
    fun _ _ => List.not_mem_nil
  have same (field : Field) : field ∈ fields.reverse ++ [] ↔ field.name ∈ before.map Prod.fst := by
    rw [names, List.mem_map_of_injective Field.name_injective, List.append_nil, List.mem_reverse]
  rw [ofTokens_object (List.append_ne_nil_of_right_ne_nil _ (List.cons_ne_nil _ _)),
    pairTokens_append names fun _ _ => given.tokens_eq acceptable, List.append_assoc, reads]
  exact readMembers_of_offends offends same next after [.closeBrace]

/-! ### Arrays -/

/-- The elements that give some fields of options. -/
def elements (options : Options) : List Field → List Token
  | [] => []
  | [field] => [options.token field]
  | field :: next :: more => options.token field :: .comma :: elements options (next :: more)

theorem token_ne_closeBracket (options : Options) (field : Field) :
    options.token field ≠ .closeBracket := by
  cases field with
  | text field => cases present : options.text? field <;> simp [token, present]
  | flag field => cases present : options.flag? field <;> simp [token, present]

theorem ofTokens_openBracket {first : Token} (opened : first ≠ .closeBracket) (rest : List Token) :
    ofTokens (.openBracket :: first :: rest) = readElements {} Field.all (first :: rest) := by
  cases first with
  | closeBracket => exact absurd rfl opened
  | _ => rfl

/-- The elements of a source are read up to their end. Behind the last of them stands a bracket,
behind any other a comma. -/
theorem ReadSoFar.readElements {source options : Options} {seen fields : List Field}
    (nonempty : fields ≠ []) (distinct : fields.Nodup)
    (fresh : ∀ field ∈ fields, field ∉ seen) (soFar : source.ReadSoFar seen options) :
    ∃ read, Options.readElements options fields (source.elements fields ++ [.closeBracket]) =
        .ok read ∧ source.ReadSoFar (fields.reverse ++ seen) read := by
  induction fields generalizing seen options with
  | nil => exact absurd rfl nonempty
  | cons field more inductionHypothesis =>
    obtain ⟨headApart, distinct⟩ := List.nodup_cons.mp distinct
    obtain ⟨next, assigned, soFar⟩ := soFar.step (fresh field List.mem_cons_self)
    cases more with
    | nil =>
      refine ⟨next, ?_, soFar⟩
      rw [elements, List.singleton_append, Options.readElements]
      simp only [assigned, finish]
    | cons second more =>
      have moreFresh : ∀ other ∈ second :: more, other ∉ field :: seen := by
        intro other member
        rw [List.mem_cons, not_or]
        exact ⟨fun same => headApart (same ▸ member), fresh other (List.mem_cons_of_mem _ member)⟩
      obtain ⟨read, done, soFar⟩ :=
        inductionHypothesis (List.cons_ne_nil _ _) distinct moreFresh soFar
      refine ⟨read, ?_, ?_⟩
      · rw [elements, List.cons_append, List.cons_append, Options.readElements]
        simp only [assigned]
        exact done
      · rwa [List.reverse_cons, List.append_assoc, List.singleton_append]

theorem elementTokens_eq_elements {options : Options} {fields : List Field}
    {elements : List Value}
    (tokens : List.Forall₂ (fun field value => Value.tokens value = [options.token field]) fields
      elements) :
    Json.elementTokens elements = options.elements fields := by
  induction tokens with
  | nil => rfl
  | @cons field value more rest here later inductionHypothesis =>
    cases later with
    | nil => rw [Json.elementTokens, here, Options.elements]
    | cons _ _ =>
      rw [Json.elementTokens, here, inductionHypothesis]
      rfl

/-- The values of all fields in order are read as the members that they stand for. -/
theorem ofTokens_array {options : Options} {members : List (Text × Value)}
    (acceptable : Acceptable members) (given : options.GivenBy members) {elements : List Value}
    (standFor : List.Forall₂ (StandsFor members) Field.all elements) :
    ofTokens (Value.array elements).tokens = .ok options := by
  have tokens : List.Forall₂ (fun field value => Value.tokens value = [options.token field])
      Field.all elements := by
    refine standFor.imp fun field value stands => ?_
    rcases stands with member | ⟨rfl, absent⟩
    · exact given.tokens_eq acceptable member
    · rw [given.token_of_notMem absent]
      rfl
  obtain ⟨read, done, soFar⟩ := (ReadSoFar.nothing options).readElements (List.cons_ne_nil _ _)
    Field.nodup_all fun _ _ => List.not_mem_nil
  have complete : read = options := soFar.eq_of_all fun field =>
    List.mem_append_left _ (List.mem_reverse.mpr field.mem_all)
  rw [complete] at done
  rw [Value.tokens, elementTokens_eq_elements tokens]
  exact (ofTokens_openBracket (options.token_ne_closeBracket _) _).trans done

end Options

/-! ### Members that say the same -/

namespace Restates

variable {members others : List (Text × Value)}

theorem acceptable (restates : Restates members others) (acceptable : Acceptable members) :
    Acceptable others := by
  induction restates with
  | reorder perm => exact acceptable.perm perm
  | addNull absent => exact Acceptable.cons_iff.mpr ⟨absent, trivial, acceptable⟩
  | dropNull =>
    obtain ⟨field, rfl⟩ := Field.exists_of_mem_names (acceptable.known _ List.mem_cons_self)
    exact (Acceptable.cons_iff.mp acceptable).2.2
  | trans _ _ first second => exact second (first acceptable)

/-- Only members that are null come and go. -/
theorem mem_iff (restates : Restates members others) {name : Text} {value : Value}
    (present : value ≠ .null) : (name, value) ∈ members ↔ (name, value) ∈ others := by
  induction restates with
  | reorder perm => exact perm.mem_iff
  | addNull _ =>
    refine ⟨List.mem_cons_of_mem _, fun member => (List.mem_cons.mp member).resolve_left ?_⟩
    exact fun same => present (Prod.mk.inj same).2
  | dropNull =>
    refine ⟨fun member => (List.mem_cons.mp member).resolve_left ?_, List.mem_cons_of_mem _⟩
    exact fun same => present (Prod.mk.inj same).2
  | trans _ _ first second => exact first.trans second

theorem givenBy (restates : Restates members others) {options : Options}
    (given : options.GivenBy members) : options.GivenBy others where
  texts field text := (given.texts field text).trans (restates.mem_iff nofun)
  flags field flag := (given.flags field flag).trans (restates.mem_iff nofun)

end Restates

/-! ### Objects -/

section Objects

variable {text : Text} {members : List (Text × Value)}
variable (isObject : Value.read? text = some (.object members))
include isObject

theorem ofJson_of_givenBy {options : Options} (acceptable : Acceptable members)
    (given : options.GivenBy members) : Options.ofJson text = .ok options := by
  rw [Options.ofJson, Value.read?_eq_some_iff.mp isObject]
  exact Options.ofTokens_of_givenBy acceptable given

theorem ofJson_of_offends {before after : List (Text × Value)} {member : Text × Value}
    {fault : Fault} (split : members = before ++ member :: after) (acceptable : Acceptable before)
    (offends : Offends (before.map Prod.fst) member fault) :
    Options.ofJson text = .error (.unfit fault) := by
  subst split
  rw [Options.ofJson, Value.read?_eq_some_iff.mp isObject]
  exact Options.ofTokens_of_offends acceptable offends

theorem acceptable_of_ofJson {options : Options} (read : Options.ofJson text = .ok options) :
    Acceptable members ∧ options.GivenBy members := by
  rcases Acceptable.or_exists_offends members with
    acceptable | ⟨before, member, after, fault, split, acceptable, offends⟩
  · obtain ⟨same, given⟩ := exists_givenBy acceptable
    rw [ofJson_of_givenBy isObject acceptable given] at read
    cases read
    exact ⟨acceptable, given⟩
  · rw [ofJson_of_offends isObject split acceptable offends] at read
    cases read

theorem ofJson_eq_error_iff {error : ReadError} :
    Options.ofJson text = .error error ↔
      ∃ before member after fault, members = before ++ member :: after ∧ Acceptable before ∧
        Offends (before.map Prod.fst) member fault ∧ error = .unfit fault := by
  constructor
  · intro failed
    rcases Acceptable.or_exists_offends members with
      acceptable | ⟨before, member, after, fault, split, acceptable, offends⟩
    · obtain ⟨options, given⟩ := exists_givenBy acceptable
      rw [ofJson_of_givenBy isObject acceptable given] at failed
      cases failed
    · rw [ofJson_of_offends isObject split acceptable offends] at failed
      cases failed
      exact ⟨before, member, after, fault, split, acceptable, offends, rfl⟩
  · rintro ⟨before, member, after, fault, split, acceptable, offends, rfl⟩
    exact ofJson_of_offends isObject split acceptable offends

end Objects

/-- An object is read as options exactly if all names are known, none comes twice, and every value
is null or of the kind of its field. The options then hold these values and nothing else. Any object
that says the same is read as the same options, and so is the array of the values of all fields in
order. Any other object is turned away for the fault of the first member that offends. -/
theorem object_accepted_iff (text : Text) (members : List (Text × Value))
    (isObject : Value.read? text = some (.object members)) :
    ((∃ options, Options.ofJson text = .ok options) ↔ Acceptable members) ∧
    (∀ options, Options.ofJson text = .ok options →
      options.GivenBy members ∧
      (∀ other others, Value.read? other = some (.object others) →
        Restates members others → Options.ofJson other = .ok options) ∧
      ∀ other elements, Value.read? other = some (.array elements) →
        List.Forall₂ (StandsFor members) Field.all elements →
          Options.ofJson other = .ok options) ∧
    ∀ error, Options.ofJson text = .error error ↔
      ∃ before member after fault, members = before ++ member :: after ∧ Acceptable before ∧
        Offends (before.map Prod.fst) member fault ∧ error = .unfit fault := by
  refine ⟨⟨fun ⟨options, read⟩ => (acceptable_of_ofJson isObject read).1, fun acceptable => ?_⟩,
    fun options read => ?_, fun error => ofJson_eq_error_iff isObject⟩
  · obtain ⟨options, given⟩ := exists_givenBy acceptable
    exact ⟨options, ofJson_of_givenBy isObject acceptable given⟩
  · obtain ⟨acceptable, given⟩ := acceptable_of_ofJson isObject read
    refine ⟨given, fun other others isOther restates => ?_,
      fun other elements isArray standFor => ?_⟩
    · exact ofJson_of_givenBy isOther (restates.acceptable acceptable) (restates.givenBy given)
    · rw [Options.ofJson, Value.read?_eq_some_iff.mp isArray]
      exact Options.ofTokens_array acceptable given standFor

/-- A field that is null may be dropped, but it may not come again, whatever its value is then. -/
theorem object_accepted_iff_null :
    let given : Text := "\x7b \"is_enum\": null, \"primary_type\": \"\\u00e9\" \x7d".toList
    let shorter : Text := "\x7b\"primary_type\":\"é\"\x7d".toList
    let repeated : Text := "\x7b\"is_enum\":null,\"is_enum\":[\x7b\"\":0\x7d]\x7d".toList
    (∃ options, Options.ofJson given = .ok options ∧ Options.ofJson shorter = .ok options) ∧
      Options.ofJson repeated = .error (.unfit (.duplicateField "is_enum".toList)) := by
  intro given shorter repeated
  let type : Text × Value := ((Field.text .primaryType).name, .string "é".toList)
  let first : Text × Value := ((Field.flag .isEnum).name, .null)
  let second : Text × Value :=
    ((Field.flag .isEnum).name, .array [.object [([], .number (.integer 0))]])
  have givenObject : Value.read? given = some (.object [first, type]) :=
    Value.read?_eq_some_iff.mpr (by decide +kernel)
  have shorterObject : Value.read? shorter = some (.object [type]) :=
    Value.read?_eq_some_iff.mpr (by decide +kernel)
  have repeatedObject : Value.read? repeated = some (.object [first, second]) :=
    Value.read?_eq_some_iff.mpr (by decide +kernel)
  have alone {field : Field} {value : Value} (accepts : field.Accepts value) :
      Acceptable [(field.name, value)] :=
    Acceptable.cons_iff.mpr ⟨List.not_mem_nil, accepts, .nil⟩
  constructor
  · obtain ⟨accepted, same, -⟩ := object_accepted_iff given [first, type] givenObject
    have acceptable : Acceptable [first, type] :=
      Acceptable.cons_iff.mpr ⟨by decide, trivial, alone trivial⟩
    obtain ⟨options, read⟩ := accepted.mpr acceptable
    exact ⟨options, read, (same options read).2.1 shorter [type] shorterObject .dropNull⟩
  · obtain ⟨-, -, failed⟩ := object_accepted_iff repeated [first, second] repeatedObject
    exact (failed _).mpr
      ⟨[first], second, [], _, rfl, alone trivial, .repeated List.mem_cons_self, rfl⟩

end Scaffold.Scalar
