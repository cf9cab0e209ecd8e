/-
This file shows that a descriptor is read back from its JSON.

The members of the object are read one after the other, and what was read so far
is always the part of the descriptor that was seen. In the end all of it was seen.
The options that come out spell every field of the descriptor, so that they build
it again.
-/

import Scaffold.Proofs.Descriptors
import Scaffold.Proofs.Spelling
import Scaffold.Scalar.Json
import Scaffold.Scalar.Setting

namespace Scaffold.Scalar

open Json (Token)

/-! ### What is written for a field -/

namespace Options

/-- The token that gives a field of options. -/
def token (options : Options) : Field → Token
  | .text field => (options.text? field).elim .null .string
  | .flag field => (options.flag? field).elim .null .boolean

/-- The members that give some fields of options. -/
def members (options : Options) (fields : List Field) : List Token :=
  Json.memberTokens (fields.map fun field => (field.name, options.token field))

end Options

/-- Some members of options, each with a comma behind it. -/
def Options.leadingMembers (options : Options) (fields : List Field) : List Token :=
  fields.flatMap fun field => [.string field.name, .colon, options.token field, .comma]

theorem Options.members_concat (options : Options) (fields : List Field) (last : Field) :
    options.members (fields ++ [last]) =
      options.leadingMembers fields ++ [.string last.name, .colon, options.token last] := by
  induction fields with
  | nil => rfl
  | cons field more inductionHypothesis =>
    rw [leadingMembers, List.flatMap_cons, List.append_assoc, ← leadingMembers,
      ← inductionHypothesis]
    cases more <;> rfl

theorem Descriptor.spells_written (descriptor : Descriptor) (field : Field) :
    Json.Spells (descriptor.written field) [descriptor.toOptions.token field] := by
  rcases field with field | field
  · cases field
    case secondaryDefault => exact Json.spells_writeOptional _
    case primaryDefault => exact Json.spells_writeOptional _
    all_goals exact Json.spells_writeString _
  · cases field
    all_goals exact Json.spells_writeBoolean _

theorem Descriptor.tokens_toJson (descriptor : Descriptor) :
    Json.tokens descriptor.toJson =
      .openBrace :: descriptor.toOptions.members Field.all ++ [.closeBrace] := by
  have spelled := Json.spells_writeObject
    (Json.spells_writeMembers Field.name descriptor.spells_written Field.all) []
  rwa [List.append_nil, Json.tokens, List.append_nil] at spelled

namespace Options

/-! ### Reading one member -/

theorem readMembers_comma {seen : List Field} {options next : Options} {field : Field}
    {value : Token} (fresh : field ∉ seen) (assigned : options.assignToken field value = .ok next)
    (rest : List Token) :
    readMembers seen options (.string field.name :: .colon :: value :: .comma :: rest) =
      readMembers (field :: seen) next rest := by
  simp only [readMembers, Field.ofName?_name, if_neg fresh, assigned]

theorem readMembers_closeBrace {seen : List Field} {options next : Options} {field : Field}
    {value : Token} (fresh : field ∉ seen) (assigned : options.assignToken field value = .ok next)
    (rest : List Token) :
    readMembers seen options (.string field.name :: .colon :: value :: .closeBrace :: rest) =
      next.finish rest := by
  simp only [readMembers, Field.ofName?_name, if_neg fresh, assigned]

theorem token_setText (options : Options) (field : TextField) (value : Text) (other : Field) :
    (options.setText field value).token other =
      if other = .text field then .string value else options.token other := by
  cases other with
  | text other =>
    simp only [token, text?_setText, Field.text.injEq]
    split <;> rfl
  | flag other => rw [token, flag?_setText, if_neg Field.noConfusion, token]

theorem token_setFlag (options : Options) (field : FlagField) (value : Bool) (other : Field) :
    (options.setFlag field value).token other =
      if other = .flag field then .boolean value else options.token other := by
  cases other with
  | text other => rw [token, text?_setFlag, if_neg Field.noConfusion, token]
  | flag other =>
    simp only [token, flag?_setFlag, Field.flag.injEq]
    split <;> rfl

/-- A field that is absent takes the token of a source, and no other field changes. Where the token
is null, the field stays absent. -/
theorem exists_assignToken (options source : Options) {field : Field}
    (absent : options.token field = .null) :
    ∃ next, options.assignToken field (source.token field) = .ok next ∧
      next.token field = source.token field ∧
        ∀ other, other ≠ field → next.token other = options.token other := by
  cases field with
  | text field =>
    rw [token]
    cases source.text? field with
    | none => exact ⟨options, rfl, absent, fun _ _ => rfl⟩
    | some value =>
      refine ⟨options.setText field value, rfl, ?_, fun other apart => ?_⟩
      · rw [token_setText, if_pos rfl, Option.elim]
      · rw [token_setText, if_neg apart]
  | flag field =>
    rw [token]
    cases source.flag? field with
    | none => exact ⟨options, rfl, absent, fun _ _ => rfl⟩
    | some value =>
      refine ⟨options.setFlag field value, rfl, ?_, fun other apart => ?_⟩
      · rw [token_setFlag, if_pos rfl, Option.elim]
      · rw [token_setFlag, if_neg apart]

/-- What may be absent is known by its token, if null is the token of no value. -/
theorem eq_of_elim_null {Value : Type} {wrap : Value → Token}
    (injective : ∀ {one two}, wrap one = wrap two → one = two) (given : ∀ value, wrap value ≠ .null)
    {first second : Option Value} (same : first.elim .null wrap = second.elim .null wrap) :
    first = second := by
  cases first with
  | none =>
    cases second with
    | none => rfl
    | some value => exact absurd same.symm (given value)
  | some value =>
    cases second with
    | none => exact absurd same (given value)
    | some other => exact congrArg some (injective same)

theorem eq_of_token {first second : Options}
    (same : ∀ field, first.token field = second.token field) : first = second := by
  refine eq_of_fields (fun field => ?_) (fun field => ?_)
  · exact eq_of_elim_null Token.string.inj (fun _ => Token.noConfusion) (same (.text field))
  · exact eq_of_elim_null Token.boolean.inj (fun _ => Token.noConfusion) (same (.flag field))

/-! ### Reading all members -/

/-- The options hold what a source has for the fields that were seen, and nothing else. -/
def ReadSoFar (source : Options) (seen : List Field) (options : Options) : Prop :=
  ∀ field, options.token field = if field ∈ seen then source.token field else .null

namespace ReadSoFar

variable {source options : Options} {seen : List Field}

theorem nothing (source : Options) : source.ReadSoFar [] {} := by
  intro field
  rcases field with field | field <;> cases field <;> rfl

theorem eq_of_all (soFar : source.ReadSoFar seen options) (all : ∀ field, field ∈ seen) :
    options = source :=
  eq_of_token fun field => by rw [soFar, if_pos (all field)]

theorem step (soFar : source.ReadSoFar seen options) {field : Field} (fresh : field ∉ seen) :
    ∃ next, options.assignToken field (source.token field) = .ok next ∧
      source.ReadSoFar (field :: seen) next := by
  have absent : options.token field = .null := by rw [soFar, if_neg fresh]
  obtain ⟨next, assigned, changed, kept⟩ := options.exists_assignToken source absent
  refine ⟨next, assigned, fun other => ?_⟩
  by_cases same : other = field
  · subst same
    rw [changed, if_pos List.mem_cons_self]
  · rw [kept other same, soFar]
    simp only [List.mem_cons, same, false_or]

/-- Members with a comma behind each are read, and then their fields were seen too. -/
theorem readMembers_leading {fields : List Field} (distinct : fields.Nodup)
    (fresh : ∀ field ∈ fields, field ∉ seen) (soFar : source.ReadSoFar seen options) :
    ∃ next, source.ReadSoFar (fields.reverse ++ seen) next ∧
      ∀ rest, Options.readMembers seen options (source.leadingMembers fields ++ rest) =
        Options.readMembers (fields.reverse ++ seen) next rest := by
  induction fields generalizing seen options with
  | nil => exact ⟨options, soFar, fun _ => rfl⟩
  | cons field more inductionHypothesis =>
    have headFresh : field ∉ seen := fresh field List.mem_cons_self
    obtain ⟨headApart, distinct⟩ := List.nodup_cons.mp distinct
    have moreFresh : ∀ other ∈ more, other ∉ field :: seen := by
      intro other member
      rw [List.mem_cons, not_or]
      exact ⟨fun same => headApart (same ▸ member), fresh other (List.mem_cons_of_mem _ member)⟩
    obtain ⟨next, assigned, soFar⟩ := soFar.step headFresh
    obtain ⟨last, soFar, reads⟩ := inductionHypothesis distinct moreFresh soFar
    rw [List.reverse_cons, List.append_assoc, List.singleton_append]
    refine ⟨last, soFar, fun rest => ?_⟩
    rw [← reads]
    exact readMembers_comma headFresh assigned _

/-- The members of a source are read up to their end. Behind the last of them stands a brace, behind
any other a comma. -/
theorem readMembers {fields : List Field} (nonempty : fields ≠ []) (distinct : fields.Nodup)
    (fresh : ∀ field ∈ fields, field ∉ seen) (soFar : source.ReadSoFar seen options) :
    ∃ read, Options.readMembers seen options (source.members fields ++ [.closeBrace]) = .ok read ∧
      source.ReadSoFar (fields.reverse ++ seen) read := by
  obtain ⟨front, last, rfl⟩ := (List.eq_nil_or_concat fields).resolve_left nonempty
  rw [List.concat_eq_append] at distinct fresh ⊢
  obtain ⟨frontDistinct, _, apart⟩ := List.nodup_append.mp distinct
  obtain ⟨next, soFar, reads⟩ := soFar.readMembers_leading frontDistinct
    fun field member => fresh field (List.mem_append_left _ member)
  have lastFresh : last ∉ front.reverse ++ seen := by
    rw [List.mem_append, List.mem_reverse, not_or]
    exact ⟨fun member => apart last member last List.mem_cons_self rfl,
      fresh last (List.mem_append_right _ List.mem_cons_self)⟩
  obtain ⟨read, assigned, soFar⟩ := soFar.step lastFresh
  refine ⟨read, ?_, ?_⟩
  · rw [members_concat, List.append_assoc, reads]
    exact readMembers_closeBrace lastFresh assigned []
  · rwa [List.reverse_append]

end ReadSoFar

/-- Any descriptor is read as its own options, whether or not it could have been built. -/
theorem ofJson_toJson (descriptor : Descriptor) :
    ofJson descriptor.toJson = .ok descriptor.toOptions := by
  have nonempty : Field.all ≠ [] := List.cons_ne_nil _ _
  obtain ⟨read, done, soFar⟩ := (ReadSoFar.nothing descriptor.toOptions).readMembers nonempty
    Field.nodup_all fun _ _ => List.not_mem_nil
  have complete : read = descriptor.toOptions :=
    soFar.eq_of_all fun field => List.mem_append_left _ (List.mem_reverse.mpr (Field.mem_all field))
  rw [complete] at done
  rw [ofJson, descriptor.tokens_toJson]
  exact done

end Options

/-! ### Descriptors and where they come from -/

/-- The descriptors that a constructor gives: from a primary type alone, for an enumeration, at any
point of a run of settings, or from options as they are. -/
inductive Descriptor.Constructed (descriptor : Descriptor) : Prop where
  | new (primaryType : Text) (built : (Options.ofPrimaryType primaryType).build = .ok descriptor)
  | enumeration (enumName scopedName primaryDefault : Text)
      (built : (Options.ofEnumeration enumName scopedName primaryDefault).build = .ok descriptor)
  | builder (start : Options) (settings : List Setting) (options : Options)
      (reached : options ∈ start.history settings) (built : options.build = .ok descriptor)
  | options (options : Options) (built : options.build = .ok descriptor)

theorem Descriptor.Constructed.exists_build {descriptor : Descriptor}
    (constructed : descriptor.Constructed) :
    ∃ options : Options, options.build = .ok descriptor := by
  cases constructed with
  | new primaryType built => exact ⟨_, built⟩
  | enumeration enumName scopedName primaryDefault built => exact ⟨_, built⟩
  | builder start settings options reached built => exact ⟨options, built⟩
  | options options built => exact ⟨options, built⟩

/-- Every descriptor that was constructed is read back from its JSON. -/
theorem Descriptor.Constructed.read_back {descriptor : Descriptor}
    (constructed : descriptor.Constructed) :
    ∃ options, Options.ofJson descriptor.toJson = .ok options ∧ options.build = .ok descriptor := by
  obtain ⟨options, built⟩ := constructed.exists_build
  exact ⟨descriptor.toOptions, Options.ofJson_toJson descriptor, Options.build_toOptions built⟩

/-- The primary type holds a quote and a backslash, the serialized one control characters. They
differ, so the setter is there only because the options say so. -/
theorem Descriptor.Constructed.read_back_escaped :
    let options : Options :=
      { primaryType := some "é\"\\".toList
        serializedType := some "\x01\n".toList
        hasSerializerSetter := some true }
    let descriptor := options.resolved "é\"\\".toList
    descriptor.Constructed ∧
      ∃ read, Options.ofJson descriptor.toJson = .ok read ∧ read.build = .ok descriptor := by
  intro options descriptor
  have constructed : descriptor.Constructed := .options options rfl
  exact ⟨constructed, constructed.read_back⟩

end Scaffold.Scalar
