/-
This file sets the options of a scalar type one after the other. The primary type
is fixed at the start: no setting reaches it.

Each setting overwrites one field and leaves the others alone. Whatever a run says
about a field before it says the last thing about it is therefore lost, and so is
the order in which it comes to the fields.
-/

import Scaffold.Scalar.Options

namespace Scaffold.Scalar

/-- One option and the value that it is set to. -/
inductive Setting where
  | text (field : TextField) (settable : field ≠ .primaryType) (value : Text)
  | flag (field : FlagField) (value : Bool)
deriving DecidableEq

namespace Options

/-- Carries out one setting. -/
def apply (options : Options) : Setting → Options
  | .text field _ value => options.setText field value
  | .flag field value => options.setFlag field value

/-- The options before any setting and after each one. -/
def history (options : Options) : List Setting → List Options
  | [] => [options]
  | setting :: rest => options :: history (options.apply setting) rest

/-- Carries out settings one after the other. -/
def run (options : Options) (settings : List Setting) : Options :=
  settings.foldl apply options

theorem getElem?_history (options : Options) (settings : List Setting) (count : Nat)
    (within : count ≤ settings.length) :
    (options.history settings)[count]? = some (options.run (settings.take count)) := by
  induction settings generalizing options count with
  | nil =>
    cases Nat.le_zero.mp within
    rfl
  | cons setting rest inductionHypothesis =>
    cases count with
    | zero => rfl
    | succ count => exact inductionHypothesis _ count (Nat.le_of_succ_le_succ within)

theorem getLast?_history (options : Options) (settings : List Setting) :
    (options.history settings).getLast? = some (options.run settings) := by
  induction settings generalizing options with
  | nil => rfl
  | cons setting rest inductionHypothesis =>
    rw [history, List.getLast?_cons, inductionHypothesis]
    rfl

end Options

/-! ### The last argument -/

/-- The text that a setting gives a field. -/
def Setting.text? (field : TextField) : Setting → Option Text
  | .text other _ value => if field = other then some value else none
  | .flag _ _ => none

/-- The truth value that a setting gives a field. -/
def Setting.flag? (field : FlagField) : Setting → Option Bool
  | .text _ _ _ => none
  | .flag other value => if field = other then some value else none

/-- No setting gives a primary type. -/
theorem Setting.text?_primaryType (setting : Setting) : setting.text? .primaryType = none := by
  cases setting with
  | text other settable value => rw [Setting.text?, if_neg settable.symm]
  | flag other value => rfl

/-- The last text that a field is set to. -/
def lastText? (settings : List Setting) (field : TextField) : Option Text :=
  settings.reverse.findSome? (Setting.text? field)

/-- The last truth value that a field is set to. -/
def lastFlag? (settings : List Setting) (field : FlagField) : Option Bool :=
  settings.reverse.findSome? (Setting.flag? field)

/-- No run gives a primary type. -/
theorem lastText?_primaryType (settings : List Setting) :
    lastText? settings .primaryType = none := by
  rw [lastText?, List.findSome?_eq_none_iff]
  exact fun setting _ => setting.text?_primaryType

theorem lastText?_cons (setting : Setting) (rest : List Setting) (field : TextField) :
    lastText? (setting :: rest) field = (lastText? rest field).or (setting.text? field) := by
  rw [lastText?, List.reverse_cons, List.findSome?_append, List.findSome?_singleton, lastText?]

theorem lastFlag?_cons (setting : Setting) (rest : List Setting) (field : FlagField) :
    lastFlag? (setting :: rest) field = (lastFlag? rest field).or (setting.flag? field) := by
  rw [lastFlag?, List.reverse_cons, List.findSome?_append, List.findSome?_singleton, lastFlag?]

/-! ### What a run leaves behind -/

namespace Options

theorem text?_apply (options : Options) (setting : Setting) (field : TextField) :
    (options.apply setting).text? field = (setting.text? field).or (options.text? field) := by
  cases setting with
  | text other settable value =>
    rw [apply, text?_setText, Setting.text?]
    split <;> rfl
  | flag other value => exact text?_setFlag options other field value

theorem flag?_apply (options : Options) (setting : Setting) (field : FlagField) :
    (options.apply setting).flag? field = (setting.flag? field).or (options.flag? field) := by
  cases setting with
  | text other settable value => exact flag?_setText options other field value
  | flag other value =>
    rw [apply, flag?_setFlag, Setting.flag?]
    split <;> rfl

theorem text?_run (options : Options) (settings : List Setting) (field : TextField) :
    (options.run settings).text? field = (lastText? settings field).or (options.text? field) := by
  unfold run
  induction settings generalizing options with
  | nil => rfl
  | cons setting rest inductionHypothesis =>
    rw [List.foldl_cons, inductionHypothesis, text?_apply, lastText?_cons, Option.or_assoc]

theorem flag?_run (options : Options) (settings : List Setting) (field : FlagField) :
    (options.run settings).flag? field = (lastFlag? settings field).or (options.flag? field) := by
  unfold run
  induction settings generalizing options with
  | nil => rfl
  | cons setting rest inductionHypothesis =>
    rw [List.foldl_cons, inductionHypothesis, flag?_apply, lastFlag?_cons, Option.or_assoc]

/-! ### Fields that are overwritten -/

section Filling

variable (texts : TextField → Option Text) (flags : FlagField → Option Bool)

/-- The options with one field overwritten, if there is a value for it. -/
def fill (options : Options) : Field → Options
  | .text field => (texts field).elim options (options.setText field)
  | .flag field => (flags field).elim options (options.setFlag field)

/-- The options with each of some fields overwritten, if there is a value for it. -/
def fillAll (options : Options) (fields : List Field) : Options :=
  fields.foldl (fill texts flags) options

theorem text?_fill (options : Options) (field : Field) (other : TextField) :
    (fill texts flags options field).text? other =
      if .text other = field then (texts other).or (options.text? other)
      else options.text? other := by
  cases field with
  | text field =>
    by_cases same : other = field
    · subst same
      cases given : texts other <;> simp [fill, given, text?_setText]
    · cases given : texts field <;> simp [fill, given, same, text?_setText]
  | flag field => cases given : flags field <;> simp [fill, given]

theorem flag?_fill (options : Options) (field : Field) (other : FlagField) :
    (fill texts flags options field).flag? other =
      if .flag other = field then (flags other).or (options.flag? other)
      else options.flag? other := by
  cases field with
  | text field => cases given : texts field <;> simp [fill, given]
  | flag field =>
    by_cases same : other = field
    · subst same
      cases given : flags other <;> simp [fill, given, flag?_setFlag]
    · cases given : flags field <;> simp [fill, given, same, flag?_setFlag]

/-- What is seen of one field changes once if the field is among those that are overwritten. A
second time changes nothing. -/
theorem observe_fillAll {Value : Type} (observe : Options → Option Value) {given : Option Value}
    {field : Field}
    (step : ∀ options other, observe (fill texts flags options other) =
      if field = other then given.or (observe options) else observe options)
    (options : Options) (fields : List Field) :
    observe (options.fillAll texts flags fields) =
      if field ∈ fields then given.or (observe options) else observe options := by
  unfold fillAll
  induction fields generalizing options with
  | nil => rw [List.foldl_nil, if_neg List.not_mem_nil]
  | cons first rest inductionHypothesis =>
    rw [List.foldl_cons, inductionHypothesis, step]
    by_cases same : field = first
    · simp [same, ← Option.or_assoc]
    · simp [same]

theorem text?_fillAll (options : Options) (fields : List Field) (field : TextField) :
    (options.fillAll texts flags fields).text? field =
      if .text field ∈ fields then (texts field).or (options.text? field)
      else options.text? field :=
  observe_fillAll texts flags (text? · field)
    (fun options other => text?_fill texts flags options other field) options fields

theorem flag?_fillAll (options : Options) (fields : List Field) (field : FlagField) :
    (options.fillAll texts flags fields).flag? field =
      if .flag field ∈ fields then (flags field).or (options.flag? field)
      else options.flag? field :=
  observe_fillAll texts flags (flag? · field)
    (fun options other => flag?_fill texts flags options other field) options fields

end Filling

end Options

end Scaffold.Scalar
