/-
This file proves that a run of settings is told by what it says last about each
field. No setting reaches the primary type, the one field that decides whether a
descriptor can be built, so a run neither makes good options bad nor bad ones good.
-/

import Scaffold.Proofs.Descriptors
import Scaffold.Scalar.Setting

namespace Scaffold.Scalar

namespace Options

/-- The options with every field overwritten that is set, by the last thing that it is set to. -/
def overwritten (options : Options) (settings : List Setting) : Options where
  primaryType := options.primaryType
  isEnum := (lastFlag? settings .isEnum).or options.isEnum
  passedByReference := (lastFlag? settings .passedByReference).or options.passedByReference
  secondaryType := (lastText? settings .secondaryType).or options.secondaryType
  secondaryReferenceType :=
    (lastText? settings .secondaryReferenceType).or options.secondaryReferenceType
  serializedType := (lastText? settings .serializedType).or options.serializedType
  hasSerializerSetter := (lastFlag? settings .hasSerializerSetter).or options.hasSerializerSetter
  scopedPrimaryType := (lastText? settings .scopedPrimaryType).or options.scopedPrimaryType
  secondaryDefault := (lastText? settings .secondaryDefault).or options.secondaryDefault
  primaryDefault := (lastText? settings .primaryDefault).or options.primaryDefault
  omitIfDefault := (lastFlag? settings .omitIfDefault).or options.omitIfDefault

/-- A run leaves each field as the last setting for it does. -/
theorem run_eq_overwritten (options : Options) (settings : List Setting) :
    options.run settings = options.overwritten settings := by
  refine eq_of_fields (fun field => ?_) (fun field => ?_)
  · cases field with
    | primaryType =>
      rw [text?_run, lastText?_primaryType, Option.none_or]
      rfl
    | _ => exact text?_run options settings _
  · cases field <;> exact flag?_run options settings _

/-! ### The primary type -/

/-- The primary type stays at every point of a run. -/
theorem primaryType_of_mem_history {start reached : Options} {settings : List Setting}
    (member : reached ∈ start.history settings) : reached.primaryType = start.primaryType := by
  induction settings generalizing start with
  | nil => rw [List.mem_singleton.mp member]
  | cons setting rest inductionHypothesis =>
    rcases List.mem_cons.mp member with rfl | later
    · rfl
    · calc reached.primaryType
        _ = (start.apply setting).primaryType := inductionHypothesis later
        _ = (setting.text? .primaryType).or start.primaryType :=
          text?_apply start setting .primaryType
        _ = start.primaryType := by rw [setting.text?_primaryType, Option.none_or]

theorem hasPrimaryType_of_mem_history {start reached : Options} {settings : List Setting}
    (member : reached ∈ start.history settings) :
    reached.HasPrimaryType ↔ start.HasPrimaryType := by
  rw [HasPrimaryType, HasPrimaryType, primaryType_of_mem_history member]

theorem build_eq_missing_iff (options : Options) :
    options.build = .error .missingPrimaryType ↔ ¬ options.HasPrimaryType := by
  refine ⟨fun failed named => ?_, build_of_not_hasPrimaryType⟩
  obtain ⟨descriptor, built⟩ := options.exists_build_iff.mpr named
  rw [failed] at built
  cases built

/-- Without a primary type means: there is none, or it is empty, or it is all white space. -/
theorem not_hasPrimaryType_iff (options : Options) :
    ¬ options.HasPrimaryType ↔
      ∀ primaryType, options.primaryType = some primaryType →
        ∀ c ∈ primaryType, Text.isBlank c = true := by
  simp only [HasPrimaryType, Text.HasContent, not_exists, not_and, Bool.not_eq_false]

end Options

/-- At every point of a run the options build what the first ones build with each field overwritten
by the last setting for it so far. Two runs that agree on the last setting for every field end
alike. And either all points of a run fail to build for want of a primary type, or none does: all
fail exactly if the run begins with no primary type, or with one that is empty or all white space. -/
theorem last_setting_wins (start : Options) (settings : List Setting) :
    (∀ count ≤ settings.length, ∃ options,
      (start.history settings)[count]? = some options ∧
        options.build = (start.overwritten (settings.take count)).build) ∧
    (∀ other : List Setting, (∀ field, lastText? settings field = lastText? other field) →
      (∀ field, lastFlag? settings field = lastFlag? other field) →
        (start.history settings).getLast?.map Options.build =
          (start.history other).getLast?.map Options.build) ∧
    ((∀ options ∈ start.history settings, options.build = .error .missingPrimaryType) ∨
      ∀ options ∈ start.history settings, ∃ descriptor, options.build = .ok descriptor) ∧
    ∀ options ∈ start.history settings,
      options.build = .error .missingPrimaryType ↔
        ∀ primaryType, start.primaryType = some primaryType →
          ∀ c ∈ primaryType, Text.isBlank c = true := by
  refine ⟨fun count within => ?_, fun other sameTexts sameFlags => ?_, ?_, fun options member => ?_⟩
  · refine ⟨_, start.getElem?_history settings count within, ?_⟩
    rw [start.run_eq_overwritten]
  · have same : start.overwritten settings = start.overwritten other := by
      simp only [Options.overwritten, sameTexts, sameFlags]
    rw [start.getLast?_history, start.getLast?_history, start.run_eq_overwritten, same,
      start.run_eq_overwritten]
  · by_cases named : start.HasPrimaryType
    · refine Or.inr fun options member => options.exists_build_iff.mpr ?_
      exact (Options.hasPrimaryType_of_mem_history member).mpr named
    · refine Or.inl fun options member => options.build_eq_missing_iff.mpr ?_
      exact mt (Options.hasPrimaryType_of_mem_history member).mp named
  · rw [options.build_eq_missing_iff, Options.hasPrimaryType_of_mem_history member,
      start.not_hasPrimaryType_iff]

/-- The serialized type is set twice, with the setter in between. -/
theorem last_setting_wins_twice :
    let start : Options := .ofPrimaryType ['T']
    let serialized (value : Text) : Setting := .text .serializedType (by decide) value
    let settings := [serialized ['x'], .flag .hasSerializerSetter true, serialized ['y']]
    let other := [.flag .hasSerializerSetter true, serialized ['y']]
    2 ≤ settings.length ∧
    (∃ options, (start.history settings)[2]? = some options ∧
      options.build = (start.overwritten (settings.take 2)).build) ∧
    (∀ field, lastText? settings field = lastText? other field) ∧
    (∀ field, lastFlag? settings field = lastFlag? other field) ∧
    (start.history settings).getLast?.map Options.build =
      (start.history other).getLast?.map Options.build := by
  intro start serialized settings other
  have within : 2 ≤ settings.length := by decide
  have sameTexts (field : TextField) : lastText? settings field = lastText? other field := by
    cases field <;> rfl
  have sameFlags (field : FlagField) : lastFlag? settings field = lastFlag? other field := by
    cases field <;> rfl
  obtain ⟨reaches, ends, _⟩ := last_setting_wins start settings
  exact ⟨within, reaches 2 within, sameTexts, sameFlags, ends other sameTexts sameFlags⟩

end Scaffold.Scalar
