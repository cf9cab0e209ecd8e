/-
This file proves what comes of spelling out defaults.

Fields that are absent resolve to defaults, and some defaults are taken from what
other fields resolve to. Giving a field the value that it would have resolved to
leaves that value as it is, and so leaves alone whatever is taken from it. One
default is not about a value but about presence: without a serialized type the
setter is there whatever the options say about it, and with one they are heard.
-/

import Scaffold.Proofs.Descriptors
import Scaffold.Scalar.Setting

namespace Scaffold.Scalar

namespace Options

/-- The options do not give the field. -/
def Lacks (options : Options) : Field → Prop
  | .text field => options.text? field = none
  | .flag field => options.flag? field = none

/-- The options with the values of a descriptor given for some fields. A default that the descriptor
does not have stays absent. -/
def spellOut (options : Options) (descriptor : Descriptor) (fields : List Field) : Options :=
  options.fillAll descriptor.toOptions.text? descriptor.toOptions.flag? fields

/-! ### One field -/

section SpellOut

variable {options : Options} {descriptor : Descriptor}

/-- A field that resolves by itself resolves as before. -/
theorem getD_text?_spellOut (field : TextField) (fallback : Text)
    (resolves : descriptor.toOptions.text? field = some ((options.text? field).getD fallback))
    (fields : List Field) :
    ((options.spellOut descriptor fields).text? field).getD fallback =
      (options.text? field).getD fallback := by
  rw [spellOut, text?_fillAll, resolves, Option.some_or]
  split
  · rw [Option.getD_some]
  · rfl

theorem getD_flag?_spellOut (field : FlagField) (fallback : Bool)
    (resolves : descriptor.toOptions.flag? field = some ((options.flag? field).getD fallback))
    (fields : List Field) :
    ((options.spellOut descriptor fields).flag? field).getD fallback =
      (options.flag? field).getD fallback := by
  rw [spellOut, flag?_fillAll, resolves, Option.some_or]
  split
  · rw [Option.getD_some]
  · rfl

/-- A field without a default stays as it is. -/
theorem text?_spellOut_of_eq (field : TextField)
    (same : descriptor.toOptions.text? field = options.text? field) (fields : List Field) :
    (options.spellOut descriptor fields).text? field = options.text? field := by
  rw [spellOut, text?_fillAll, same, Option.or_self, ite_self]

end SpellOut

/-! ### The setter -/

/-- Where the serialized type is spelled out, the options are heard about the setter. -/
theorem hasSerializerSetter_of_mem {options : Options} {fields : List Field}
    (absent : ∀ field ∈ fields, options.Lacks field) (primaryType : Text)
    (spelled : .text .serializedType ∈ fields) :
    ((options.spellOut (options.resolved primaryType) fields).resolved
      primaryType).hasSerializerSetter = options.hasSerializerSetter.getD true := by
  have lacking : options.serializedType = none := absent _ spelled
  have serialized : (options.spellOut (options.resolved primaryType) fields).serializedType =
      some primaryType := by
    show (options.spellOut _ fields).text? .serializedType = _
    rw [spellOut, text?_fillAll, if_pos spelled]
    simp [Descriptor.toOptions, text?, resolved, lacking]
  rw [hasSerializerSetter_of_some serialized, decide_eq_true rfl]
  show ((options.spellOut _ fields).flag? .hasSerializerSetter).getD true = _
  rw [spellOut, flag?_fillAll]
  split
  · next given =>
    have unsaid : options.hasSerializerSetter = none := absent _ given
    simp [Descriptor.toOptions, flag?, hasSerializerSetter_of_none lacking, unsaid]
  · rfl

/-- Where it is not, the setter is what it was, be it given or spelled out. -/
theorem hasSerializerSetter_of_notMem (options : Options) (primaryType : Text)
    {fields : List Field} (unspelled : .text .serializedType ∉ fields) :
    ((options.spellOut (options.resolved primaryType) fields).resolved
      primaryType).hasSerializerSetter = (options.resolved primaryType).hasSerializerSetter := by
  have serialized : (options.spellOut (options.resolved primaryType) fields).serializedType =
      options.serializedType := by
    show (options.spellOut _ fields).text? .serializedType = _
    rw [spellOut, text?_fillAll, if_neg unspelled, text?]
  cases given : options.serializedType with
  | none =>
    rw [hasSerializerSetter_of_none given, hasSerializerSetter_of_none (serialized.trans given)]
  | some serializedType =>
    rw [hasSerializerSetter_of_some given, hasSerializerSetter_of_some (serialized.trans given)]
    refine getD_flag?_spellOut .hasSerializerSetter _ ?_ fields
    exact congrArg some (hasSerializerSetter_of_some given primaryType)

/-! ### All fields -/

/-- Nothing but the setter can change. -/
theorem resolved_spellOut_eq_iff (options : Options) (primaryType : Text) (fields : List Field) :
    (options.spellOut (options.resolved primaryType) fields).resolved primaryType =
        options.resolved primaryType ↔
      ((options.spellOut (options.resolved primaryType) fields).resolved
        primaryType).hasSerializerSetter = (options.resolved primaryType).hasSerializerSetter := by
  refine ⟨congrArg Descriptor.hasSerializerSetter, fun setter => ?_⟩
  have texts (field : TextField) (fallback : Text)
      (resolves : (options.resolved primaryType).toOptions.text? field =
        some ((options.text? field).getD fallback)) :=
    getD_text?_spellOut field fallback resolves fields
  have flags (field : FlagField) (fallback : Bool)
      (resolves : (options.resolved primaryType).toOptions.flag? field =
        some ((options.flag? field).getD fallback)) :=
    getD_flag?_spellOut field fallback resolves fields
  have defaults (field : TextField)
      (same : (options.resolved primaryType).toOptions.text? field = options.text? field) :=
    text?_spellOut_of_eq field same fields
  have secondaryType :
      (options.spellOut (options.resolved primaryType) fields).secondaryType.getD primaryType =
        options.secondaryType.getD primaryType := texts .secondaryType primaryType rfl
  refine Descriptor.ext rfl (flags .isEnum false rfl) (flags .passedByReference false rfl)
    secondaryType ?_ (texts .serializedType primaryType rfl) setter
    (texts .scopedPrimaryType primaryType rfl) (defaults .secondaryDefault rfl)
    (defaults .primaryDefault rfl) (flags .omitIfDefault false rfl)
  rw [resolved, secondaryType]
  exact texts .secondaryReferenceType _ rfl

theorem build_spellOut {options : Options} {primaryType : Text}
    (given : options.primaryType = some primaryType) (content : Text.HasContent primaryType)
    (fields : List Field) :
    (options.spellOut (options.resolved primaryType) fields).build =
      .ok ((options.spellOut (options.resolved primaryType) fields).resolved primaryType) := by
  refine build_eq_resolved ?_ content
  have same : (options.resolved primaryType).toOptions.text? .primaryType =
      options.text? .primaryType := given.symm
  exact (text?_spellOut_of_eq .primaryType same fields).trans given

end Options

/-- Giving some of the absent fields the values that they resolve to changes nothing, unless the
serialized type is among them and the options say that there is no setter. -/
theorem spelling_out_neutral_iff {options : Options} {descriptor : Descriptor}
    (built : options.build = .ok descriptor) {fields : List Field}
    (absent : ∀ field ∈ fields, options.Lacks field) :
    ∃ spelled, (options.spellOut descriptor fields).build = .ok spelled ∧
      (spelled = descriptor ↔
        ¬ (.text .serializedType ∈ fields ∧ options.hasSerializerSetter = some false)) := by
  obtain ⟨primaryType, given, content⟩ := options.exists_build_iff.mp ⟨descriptor, built⟩
  rw [Options.build_eq_resolved given content] at built
  cases built
  refine ⟨_, Options.build_spellOut given content fields, ?_⟩
  rw [Options.resolved_spellOut_eq_iff]
  by_cases spelled : .text .serializedType ∈ fields
  · have lacking : options.serializedType = none := absent _ spelled
    rw [Options.hasSerializerSetter_of_mem absent primaryType spelled,
      Options.hasSerializerSetter_of_none lacking, and_iff_right spelled]
    rcases options.hasSerializerSetter with _ | _ | _ <;> decide
  · rw [Options.hasSerializerSetter_of_notMem options primaryType spelled]
    exact iff_of_true rfl fun exception => spelled exception.1

/-- The serialized type is spelled out behind a setter that was not heard, with another field. -/
theorem spelling_out_neutral_iff_unheard :
    let options : Options :=
      { primaryType := some ['T'], secondaryType := some ['t'], hasSerializerSetter := some false }
    let fields : List Field := [.text .secondaryReferenceType, .text .serializedType]
    let descriptor := options.resolved ['T']
    options.build = .ok descriptor ∧ (∀ field ∈ fields, options.Lacks field) ∧
      ∃ spelled, (options.spellOut descriptor fields).build = .ok spelled ∧
        (spelled = descriptor ↔
          ¬ (.text .serializedType ∈ fields ∧ options.hasSerializerSetter = some false)) := by
  intro options fields descriptor
  have built : options.build = .ok descriptor := rfl
  have absent : ∀ field ∈ fields, options.Lacks field :=
    List.forall_mem_cons.mpr ⟨rfl, List.forall_mem_singleton.mpr rfl⟩
  exact ⟨built, absent, spelling_out_neutral_iff built absent⟩

end Scaffold.Scalar
