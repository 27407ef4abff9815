import RelayDescriptor.Proofs.Settings.Layers

/-!
# Building settings

Layers and settings are built step by step from what has been built before.  Every step keeps to
windows that are positive and to names without blanks at their ends, and settings that keep to
this are the same after they have been written to a document and read again.
-/

namespace RelayDescriptor

/-- A step by which something is built.  What it uses is told by its place among the layers, or
among the settings, in the order in which they came about. -/
inductive BuildStep where
  | defaults
  | empty
  | document (document : OrderedMap Text Setting) (source : Option Text)
  | merge (lower upper : Nat)
  | freeze (layer : Nat)
  | thaw (settings : Nat)

/-- What has been built so far. -/
structure Built where
  layers : List Layer
  settings : List Settings

namespace Built

/-- The layer that a step adds, if it adds one. -/
def layer? (built : Built) : BuildStep → Option Layer
  | .defaults => some .defaults
  | .empty => some .empty
  | .document document source => some (.ofDocument document source)
  | .merge lower upper => do return (← built.layers[lower]?).merge (← built.layers[upper]?)
  | .freeze _ => none
  | .thaw settings => built.settings[settings]?.map Settings.thaw

/-- The settings that a step adds, if it adds any. -/
def settings? (built : Built) : BuildStep → Option Settings
  | .freeze layer => built.layers[layer]?.map Layer.freeze
  | _ => none

/-- What has been built after a further step.  A step that uses what is not there adds nothing. -/
def after (built : Built) (step : BuildStep) : Built :=
  ⟨built.layers ++ (built.layer? step).toList, built.settings ++ (built.settings? step).toList⟩

/-- What steps build from nothing. -/
def run (steps : List BuildStep) : Built := steps.foldl after ⟨[], []⟩

end Built

/-! ## What every step keeps to -/

/-- A layer that only sets what makes sense. -/
structure Layer.IsProper (layer : Layer) : Prop where
  window : ∀ window ∈ layer.window, 1 ≤ window
  hint : ∀ hint ∈ layer.hint, IsStripped hint

/-- Settings that make sense. -/
structure Settings.IsProper (settings : Settings) : Prop where
  window : 1 ≤ settings.window
  hint : ∀ hint ∈ settings.hint, IsStripped hint

namespace Layer

variable {layer above : Layer}

theorem isProper_defaults : IsProper defaults := by
  constructor <;> simp [defaults, defaultWindow]

theorem isProper_empty : IsProper empty := by
  constructor <;> simp [empty]

theorem isProper_ofDocument (document : OrderedMap Text Setting) (source : Option Text) :
    IsProper (ofDocument document source) where
  window := by
    intro window set
    obtain ⟨_, _, _, _, _, positive⟩ := window_ofDocument_eq_some_iff.mp set
    exact positive
  hint := by
    intro hint set
    obtain ⟨_, _, _, _, _, _, _, stripped, _⟩ := hint_ofDocument_eq_some_iff.mp set
    exact stripped

theorem IsProper.merge (proper : layer.IsProper) (properAbove : above.IsProper) :
    (layer.merge above).IsProper where
  window := by
    intro window set
    rcases Option.or_eq_some_iff.mp set with here | ⟨_, below⟩
    · exact properAbove.window window here
    · exact proper.window window below
  hint := by
    intro hint set
    rcases Option.or_eq_some_iff.mp set with here | ⟨_, below⟩
    · exact properAbove.hint hint here
    · exact proper.hint hint below

theorem IsProper.freeze (proper : layer.IsProper) : layer.freeze.IsProper where
  window := by
    cases set : layer.window with
    | none => simp [Layer.freeze, set, defaultWindow]
    | some window => simpa [Layer.freeze, set] using proper.window window set
  hint := proper.hint

end Layer

theorem Settings.IsProper.thaw {settings : Settings} (proper : settings.IsProper) :
    settings.thaw.IsProper where
  window := by
    intro window set
    cases set
    exact proper.window
  hint := proper.hint

namespace Built

variable {built : Built} {step : BuildStep} {layer : Layer} {settings : Settings}

/-- All that has been built makes sense. -/
structure IsProper (built : Built) : Prop where
  layers : ∀ layer ∈ built.layers, layer.IsProper
  settings : ∀ settings ∈ built.settings, settings.IsProper

theorem IsProper.of_layer? (proper : built.IsProper) (added : built.layer? step = some layer) :
    layer.IsProper := by
  cases step with
  | defaults =>
      cases added
      exact Layer.isProper_defaults
  | empty =>
      cases added
      exact Layer.isProper_empty
  | document document source =>
      cases added
      exact Layer.isProper_ofDocument document source
  | merge lower upper =>
      obtain ⟨below, foundBelow, added⟩ := Option.bind_eq_some_iff.mp added
      obtain ⟨above, foundAbove, added⟩ := Option.bind_eq_some_iff.mp added
      cases added
      exact (proper.layers below (List.mem_of_getElem? foundBelow)).merge
        (proper.layers above (List.mem_of_getElem? foundAbove))
  | freeze layer => cases added
  | thaw settings =>
      obtain ⟨frozen, found, rfl⟩ := Option.map_eq_some_iff.mp added
      exact (proper.settings frozen (List.mem_of_getElem? found)).thaw

theorem IsProper.of_settings? (proper : built.IsProper)
    (added : built.settings? step = some settings) : settings.IsProper := by
  cases step with
  | freeze layer =>
      obtain ⟨layer, found, rfl⟩ := Option.map_eq_some_iff.mp added
      exact (proper.layers layer (List.mem_of_getElem? found)).freeze
  | _ => cases added

theorem IsProper.after (proper : built.IsProper) (step : BuildStep) :
    (built.after step).IsProper where
  layers := by
    intro layer member
    rcases List.mem_append.mp member with before | added
    · exact proper.layers layer before
    · exact proper.of_layer? (Option.mem_toList.mp added)
  settings := by
    intro settings member
    rcases List.mem_append.mp member with before | added
    · exact proper.settings settings before
    · exact proper.of_settings? (Option.mem_toList.mp added)

theorem isProper_run (steps : List BuildStep) : (run steps).IsProper := by
  have onward : ∀ built : Built, built.IsProper → (steps.foldl Built.after built).IsProper := by
    induction steps with
    | nil => exact fun _ proper => proper
    | cons step steps induction => exact fun _ proper => induction _ (proper.after step)
  exact onward ⟨[], []⟩ ⟨by simp, by simp⟩

end Built

/-! ## Writing settings and reading them again -/

theorem Text.trim_of_isStripped {name : Text} (stripped : IsStripped name) : trim name = name := by
  have unpadded : ∀ c ∈ ([] : Text), isBlank c = true := by simp
  simpa using trim_append unpadded stripped unpadded

theorem IsStripped.ne_nil {name : Text} (stripped : IsStripped name) : name ≠ [] := by
  rintro rfl
  obtain ⟨⟨_, begins, _⟩, _⟩ := stripped
  cases begins

namespace Layer

variable {α : Type} {options : OrderedMap Text Setting} {name : Text} {value : Setting}

theorem readHint?_text_eq_some_iff : readHint? (.text name) = some name ↔ IsStripped name := by
  constructor
  · intro read
    obtain ⟨_, _, _, stripped, _⟩ := readHint?_eq_some_iff.mp read
    exact stripped
  · intro stripped
    simp [readHint?, Text.trim_of_isStripped stripped, stripped.ne_nil]

/-- Nothing is remarked on an option that is not given. -/
theorem ignored_of_none (read? : Setting → Option α) (expected : String)
    (notGiven : option? name options = none) : ignored options name read? expected = [] := by
  simp [ignored, notGiven]

/-- Nothing is remarked on an option that is understood. -/
theorem ignored_of_some {read? : Setting → Option α} {result : α} (expected : String)
    (given : option? name options = some value) (read : read? value = some result) :
    ignored options name read? expected = [] := by
  simp [ignored, given, read]

end Layer

namespace Settings

variable {settings : Settings}

/-- The options that settings are written as. -/
def options (settings : Settings) : OrderedMap Text Setting :=
  [(strictOption, .flag settings.strict), (windowOption, .integer settings.window)] ++
    (settings.hint.map fun name => (hintOption, Setting.text name)).toList

theorem toDocument_eq (settings : Settings) :
    settings.toDocument = [(optionTable, .table settings.options)] := by
  obtain ⟨strict, window, hint, sources⟩ := settings
  cases hint <;> rfl

theorem option?_hintOption (settings : Settings) :
    Layer.option? hintOption settings.options = settings.hint.map .text := by
  obtain ⟨strict, window, hint, sources⟩ := settings
  cases hint <;> rfl

theorem unknownOptions_options (settings : Settings) :
    Layer.unknownOptions settings.options = [] := by
  obtain ⟨strict, window, hint, sources⟩ := settings
  cases hint <;> rfl

/-- What is read of settings that were written to a document. -/
theorem ofDocument_toDocument (settings : Settings) :
    Layer.ofDocument settings.toDocument none =
      ⟨some settings.strict, Layer.readWindow? (.integer settings.window),
        settings.hint.bind fun name => Layer.readHint? (.text name), []⟩ := by
  obtain ⟨strict, window, hint, sources⟩ := settings
  cases hint <;> rfl

/-- Settings that make sense, and no others, are the same after they have been written and read,
but for the documents that they came from. -/
theorem freeze_ofDocument_toDocument_iff :
    (Layer.ofDocument settings.toDocument none).freeze = { settings with sources := [] } ↔
      settings.IsProper := by
  obtain ⟨strict, window, hint, sources⟩ := settings
  rw [ofDocument_toDocument]
  simp only [Layer.freeze, Layer.readWindow?, Option.getD_some, mk.injEq, true_and, and_true]
  constructor
  · rintro ⟨sameWindow, sameHint⟩
    constructor
    · -- The default stands in for a window that is not positive, and is positive itself.
      dsimp only
      split at sameWindow
      next positive => exact positive
      next => simp [← sameWindow, defaultWindow]
    · rintro name rfl
      exact Layer.readHint?_text_eq_some_iff.mp sameHint
  · rintro ⟨positive, stripped⟩
    constructor
    · exact congrArg (Option.getD · defaultWindow) (if_pos positive)
    · cases hint with
      | none => rfl
      | some name => exact Layer.readHint?_text_eq_some_iff.mpr (stripped name rfl)

/-- Settings that make sense are read without a remark. -/
theorem IsProper.remarks_eq_nil (proper : settings.IsProper) :
    Layer.remarks settings.toDocument none = [] := by
  have strictQuiet :
      Layer.ignored settings.options strictOption Layer.readStrict? "a boolean" = [] := by
    have given : Layer.option? strictOption settings.options = some (.flag settings.strict) := rfl
    exact Layer.ignored_of_some _ given rfl
  have windowQuiet :
      Layer.ignored settings.options windowOption Layer.readWindow? "a positive integer" = [] := by
    have given : Layer.option? windowOption settings.options =
        some (.integer settings.window) := rfl
    exact Layer.ignored_of_some _ given (if_pos proper.window)
  have hintQuiet :
      Layer.ignored settings.options hintOption Layer.readHint? "a type name" = [] := by
    have given := settings.option?_hintOption
    cases named : settings.hint with
    | none =>
        rw [named] at given
        exact Layer.ignored_of_none _ _ given
    | some name =>
        rw [named] at given
        exact Layer.ignored_of_some _ given
          (Layer.readHint?_text_eq_some_iff.mpr (proper.hint name named))
  have table : Layer.optionTable? settings.toDocument = some (.table settings.options) := by
    rw [settings.toDocument_eq]
    rfl
  simp only [Layer.remarks, table, settings.unknownOptions_options, strictQuiet, windowQuiet,
    hintQuiet, List.map_nil, List.append_nil]

end Settings

/-- Whatever the steps by which settings are built, the window is positive and the name, if there
is one, has no blanks at its ends.  So the settings are the same after they have been written to
a document and read again, without a remark, but for the documents that they came from, and they
are the same after a layer has been made of them. -/
theorem settings_of_run (steps : List BuildStep) :
    ∀ settings ∈ (Built.run steps).settings,
      1 ≤ settings.window ∧ (∀ name ∈ settings.hint, IsStripped name) ∧
        (Layer.ofDocument settings.toDocument none).freeze = { settings with sources := [] } ∧
        Layer.remarks settings.toDocument none = [] ∧ settings.thaw.freeze = settings := by
  intro settings member
  have proper := (Built.isProper_run steps).settings settings member
  exact ⟨proper.window, proper.hint, Settings.freeze_ofDocument_toDocument_iff.mpr proper,
    proper.remarks_eq_nil, settings.freeze_thaw⟩

/-- Settings from a document with blanks around a name and a window that is too small, over settings
from another document that were frozen and thawed before. -/
theorem settings_of_run_thawed :
    let lower : OrderedMap Text Setting := [(optionTable, .table [(windowOption, .integer 300)])]
    let upper : OrderedMap Text Setting := [(optionTable, .table
      [(windowOption, .integer 0), (hintOption, .text " microdescriptor\t".toList)])]
    let settings : Settings :=
      ⟨false, 300, some "microdescriptor".toList, ["a".toList, "b".toList]⟩
    settings ∈ (Built.run
        [.defaults, .document lower (some "a".toList), .merge 0 1, .freeze 2, .thaw 0,
          .document upper (some "b".toList), .merge 3 4, .freeze 5]).settings ∧
      (Layer.ofDocument settings.toDocument none).freeze = { settings with sources := [] } := by
  intro lower upper settings
  have built : settings ∈ (Built.run
      [.defaults, .document lower (some "a".toList), .merge 0 1, .freeze 2, .thaw 0,
        .document upper (some "b".toList), .merge 3 4, .freeze 5]).settings :=
    List.mem_cons_of_mem _ List.mem_cons_self
  exact ⟨built, (settings_of_run _ settings built).2.2.1⟩

end RelayDescriptor
