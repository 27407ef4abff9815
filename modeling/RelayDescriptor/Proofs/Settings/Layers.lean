import Mathlib.Data.List.DropRight
import RelayDescriptor.Command.Configuration
import RelayDescriptor.Proofs.Prevailing

/-!
# What prevails among layers

A document sets an option if its table of options has a value for it that makes sense.  Of the
documents whose layers are merged the last one that sets an option decides, whatever the other
options are and however the merging is grouped.
-/

namespace RelayDescriptor

/-! ## Blanks at both ends -/

/-- A text that begins and ends with characters that are not blank. -/
structure IsStripped (text : Text) : Prop where
  first : ∃ c ∈ text.head?, isBlank c = false
  last : ∃ c ∈ text.getLast?, isBlank c = false

namespace Text

variable {before name after text : Text}

theorem trimEnd_eq_rdropWhile (text : Text) : trimEnd text = text.rdropWhile isBlank := rfl

theorem trim_append (blankBefore : ∀ c ∈ before, isBlank c = true) (stripped : IsStripped name)
    (blankAfter : ∀ c ∈ after, isBlank c = true) : trim (before ++ name ++ after) = name := by
  obtain ⟨⟨first, begins, firstKept⟩, last, ends, lastKept⟩ := stripped
  have start : trimStart (before ++ name ++ after) = name ++ after := by
    rw [trimStart, List.append_assoc, List.dropWhile_append_of_pos blankBefore]
    obtain ⟨rest, rfl⟩ := List.head?_eq_some_iff.mp begins
    rw [List.cons_append, List.dropWhile_cons_of_neg (Bool.eq_false_iff.mp firstKept)]
  rw [trim, start, trimEnd, List.reverse_append,
    List.dropWhile_append_of_pos fun c member => blankAfter c (List.mem_reverse.mp member)]
  obtain ⟨rest, rfl⟩ := List.getLast?_eq_some_iff.mp ends
  rw [List.reverse_append, List.reverse_singleton, List.singleton_append,
    List.dropWhile_cons_of_neg (Bool.eq_false_iff.mp lastKept)]
  simp

theorem exists_append_trim (text : Text) :
    ∃ before after, text = before ++ trim text ++ after ∧
      (∀ c ∈ before, isBlank c = true) ∧ ∀ c ∈ after, isBlank c = true := by
  refine ⟨text.takeWhile isBlank, (trimStart text).rtakeWhile isBlank, ?_, ?_, ?_⟩
  · rw [List.append_assoc, trim, trimEnd_eq_rdropWhile, List.rdropWhile_append_rtakeWhile,
      trimStart, List.takeWhile_append_dropWhile]
  · exact fun c member => List.mem_takeWhile_imp member
  · exact fun c member => List.mem_rtakeWhile_imp member

theorem isStripped_trim (nonempty : trim text ≠ []) : IsStripped (trim text) := by
  constructor
  · -- What is taken off at the end leaves the first character that is not blank.
    obtain ⟨rest, same⟩ := List.rdropWhile_prefix isBlank (trimStart text)
    obtain ⟨c, others, found⟩ := List.exists_cons_of_ne_nil nonempty
    have kept := List.head?_dropWhile_not isBlank text
    rw [← trimStart, ← same, ← trimEnd_eq_rdropWhile, ← trim, found] at kept
    exact ⟨c, by rw [found]; rfl, kept⟩
  · exact ⟨_, List.getLast?_eq_some_getLast nonempty,
      Bool.eq_false_iff.mpr (List.rdropWhile_last_not isBlank (trimStart text) nonempty)⟩

end Text

/-! ## What a document sets -/

namespace Setting

/-- A flag says itself. -/
def IsFlag (flag : Bool) (value : Setting) : Prop := value = .flag flag

/-- A positive number says how many bytes are looked at. -/
def IsWindow (window : Int) (value : Setting) : Prop := value = .integer window ∧ 0 < window

/-- A text that is not blank says a name, around which there may be blanks. -/
def IsHint (name : Text) (value : Setting) : Prop :=
  ∃ before after, value = .text (before ++ name ++ after) ∧ IsStripped name ∧
    (∀ c ∈ before, isBlank c = true) ∧ ∀ c ∈ after, isBlank c = true

end Setting

namespace Layer

variable {α : Type} {document changed options others : OrderedMap Text Setting}
  {source : Option Text} {name : Text} {value : Setting}

theorem readStrict?_eq_some_iff {flag : Bool} :
    readStrict? value = some flag ↔ value.IsFlag flag := by
  cases value <;> simp [readStrict?, Setting.IsFlag]

theorem readWindow?_eq_some_iff {window : Int} :
    readWindow? value = some window ↔ value.IsWindow window := by
  cases value with
  | integer n =>
      rw [readWindow?, Option.ite_none_right_eq_some, Option.some.injEq, Setting.IsWindow,
        Setting.integer.injEq]
      grind
  | _ => simp [readWindow?, Setting.IsWindow]

theorem readHint?_eq_some_iff {hint : Text} : readHint? value = some hint ↔ value.IsHint hint := by
  constructor
  · intro read
    rw [readHint?.eq_def] at read
    split at read
    next text =>
      split at read
      next => cases read
      next nonempty =>
        cases read
        obtain ⟨before, after, same, blankBefore, blankAfter⟩ := Text.exists_append_trim text
        have stripped := Text.isStripped_trim fun empty => nonempty (List.isEmpty_iff.mpr empty)
        exact ⟨before, after, congrArg Setting.text same, stripped, blankBefore, blankAfter⟩
    next => cases read
  · rintro ⟨before, after, rfl, stripped, blankBefore, blankAfter⟩
    have trimmed := Text.trim_append blankBefore stripped blankAfter
    have nonempty : ¬hint.isEmpty := by
      intro empty
      obtain ⟨⟨c, begins, _⟩, _⟩ := stripped
      rw [List.isEmpty_iff.mp empty] at begins
      cases begins
    rw [readHint?, trimmed, if_neg nonempty]

/-- Where the table of options of a document is: at the top, or else within the table of this
tool.  Whatever has the name of the table at the top hides the other place. -/
inductive HasOptions (document options : OrderedMap Text Setting) : Prop
  | top (found : document.find? optionTable = some (.table options))
  | tool {tools tool : OrderedMap Text Setting}
      (notAtTop : document.find? optionTable = none ∨ document.find? optionTable = some .absent)
      (foundTools : document.find? "tool".toList = some (.table tools))
      (foundTool : tools.find? "descparse".toList = some (.table tool))
      (found : tool.find? optionTable = some (.table options))

theorem option?_eq_none_iff :
    option? name options = none ↔ options.find? name = none ∨ options.find? name = some .absent := by
  rw [option?]
  split <;> simp_all

theorem option?_eq_some_iff :
    option? name options = some value ↔ options.find? name = some value ∧ value ≠ .absent := by
  rw [option?]
  split <;> grind

theorem entries?_eq_some_iff : value.entries? = some options ↔ value = .table options := by
  cases value <;> simp [Setting.entries?]

/-- The table with a name, if there is one. -/
def table? (name : Text) (document : OrderedMap Text Setting) : Option (OrderedMap Text Setting) :=
  (option? name document).bind Setting.entries?

theorem table?_eq_some_iff :
    table? name document = some options ↔ document.find? name = some (.table options) := by
  simp only [table?, Option.bind_eq_some_iff, option?_eq_some_iff, entries?_eq_some_iff]
  constructor
  · rintro ⟨_, ⟨found, _⟩, rfl⟩
    exact found
  · intro found
    exact ⟨_, ⟨found, by simp⟩, rfl⟩

theorem hasOptions_iff :
    (optionTable? document).bind Setting.entries? = some options ↔ HasOptions document options := by
  cases atTop : option? optionTable document with
  | none =>
      have notAtTop := option?_eq_none_iff.mp atTop
      have within : (optionTable? document).bind Setting.entries? =
          (table? "tool".toList document).bind fun tools =>
            (table? "descparse".toList tools).bind fun tool => table? optionTable tool := by
        simp only [optionTable?, atTop, Option.none_or, Option.bind_eq_bind, Option.bind_assoc,
          table?]
      simp only [within, Option.bind_eq_some_iff, table?_eq_some_iff]
      constructor
      · rintro ⟨tools, foundTools, tool, foundTool, found⟩
        exact .tool notAtTop foundTools foundTool found
      · rintro (found | ⟨_, foundTools, foundTool, found⟩)
        · simp [found] at notAtTop
        · exact ⟨_, foundTools, _, foundTool, found⟩
  | some value =>
      -- Whether it is a table or not, the value at the top hides the table of this tool.
      obtain ⟨found, present⟩ := option?_eq_some_iff.mp atTop
      rw [optionTable?, atTop, Option.some_or, Option.bind_some, entries?_eq_some_iff]
      constructor
      · rintro rfl
        exact .top found
      · rintro (same | ⟨absent | absent, _, _, _⟩)
        · rw [found, Option.some.injEq] at same
          exact same
        · rw [found] at absent
          cases absent
        · rw [found, Option.some.injEq] at absent
          exact absurd absent present

/-- A document has a value for an option that makes sense. -/
def Sets (name : Text) (means : α → Setting → Prop) (document : OrderedMap Text Setting)
    (result : α) : Prop :=
  ∃ options value, HasOptions document options ∧ options.find? name = some value ∧
    means result value

theorem bind_option?_eq_some_iff {read? : Setting → Option α} {means : α → Setting → Prop}
    (reads : ∀ {value result}, read? value = some result ↔ means result value)
    (absent : read? .absent = none) {result : α} :
    ((optionTable? document).bind Setting.entries?).bind
        (fun options => (option? name options).bind read?) = some result ↔
      Sets name means document result := by
  rw [Option.bind_eq_some_iff]
  constructor
  · rintro ⟨options, found, read⟩
    obtain ⟨value, given, read⟩ := Option.bind_eq_some_iff.mp read
    exact ⟨options, value, hasOptions_iff.mp found, (option?_eq_some_iff.mp given).1, reads.mp read⟩
  · rintro ⟨options, value, found, given, meant⟩
    have read := reads.mpr meant
    have present : value ≠ .absent := by
      rintro rfl
      rw [absent] at read
      cases read
    exact ⟨options, hasOptions_iff.mpr found,
      Option.bind_eq_some_iff.mpr ⟨value, option?_eq_some_iff.mpr ⟨given, present⟩, read⟩⟩

theorem ofDocument_eq (document : OrderedMap Text Setting) (source : Option Text) :
    ofDocument document source =
      let options? := (optionTable? document).bind Setting.entries?
      {
        strict := options?.bind fun options => (option? strictOption options).bind readStrict?
        window := options?.bind fun options => (option? windowOption options).bind readWindow?
        hint := options?.bind fun options => (option? hintOption options).bind readHint?
        sources := source.toList
      } := by
  rw [ofDocument]
  split
  next none => simp only [none, Option.bind_none, empty]
  next options found => simp only [found, Option.bind_some]

theorem strict_ofDocument_eq_some_iff {flag : Bool} :
    (ofDocument document source).strict = some flag ↔
      Sets strictOption Setting.IsFlag document flag := by
  rw [ofDocument_eq]
  exact bind_option?_eq_some_iff readStrict?_eq_some_iff rfl

theorem window_ofDocument_eq_some_iff {window : Int} :
    (ofDocument document source).window = some window ↔
      Sets windowOption Setting.IsWindow document window := by
  rw [ofDocument_eq]
  exact bind_option?_eq_some_iff readWindow?_eq_some_iff rfl

theorem hint_ofDocument_eq_some_iff {hint : Text} :
    (ofDocument document source).hint = some hint ↔
      Sets hintOption Setting.IsHint document hint := by
  rw [ofDocument_eq]
  exact bind_option?_eq_some_iff readHint?_eq_some_iff rfl

@[simp] theorem sources_ofDocument (document : OrderedMap Text Setting) (source : Option Text) :
    (ofDocument document source).sources = source.toList := by
  rw [ofDocument_eq]

/-- What stands beside the table of options does not matter. -/
theorem ofDocument_congr
    (same : ∀ options, HasOptions changed options ↔ HasOptions document options) :
    ofDocument changed source = ofDocument document source := by
  have tables : (optionTable? changed).bind Setting.entries? =
      (optionTable? document).bind Setting.entries? := by
    apply Option.ext
    intro options
    rw [hasOptions_iff, hasOptions_iff, same]
  rw [ofDocument_eq, ofDocument_eq, tables]

/-- What a table of options says apart from one name decides what is set apart from that option. -/
theorem ofDocument_of_agree (found : HasOptions document options)
    (foundOthers : HasOptions changed others)
    (agree : ∀ other, other ≠ name → others.find? other = options.find? other) :
    (strictOption ≠ name →
      (ofDocument changed source).strict = (ofDocument document source).strict) ∧
    (windowOption ≠ name →
      (ofDocument changed source).window = (ofDocument document source).window) ∧
    (hintOption ≠ name →
      (ofDocument changed source).hint = (ofDocument document source).hint) := by
  simp only [ofDocument_eq, hasOptions_iff.mpr found, hasOptions_iff.mpr foundOthers,
    Option.bind_some, option?]
  refine ⟨?_, ?_, ?_⟩
  all_goals
    intro different
    rw [agree _ different]

/-! ## Merging -/

/-- The layers of documents with their sources. -/
def layersOf (documents : List (OrderedMap Text Setting × Option Text)) : List Layer :=
  documents.map fun (document, source) => ofDocument document source

/-- Of documents whose layers are merged the last one that sets an option prevails, for an option
that a merged layer has from the upper one if that sets it, and else from the lower one. -/
theorem prevails_foldl_merge {field : Layer → Option α}
    {sets : OrderedMap Text Setting → α → Prop} (unset : field empty = none)
    (merges : ∀ layer above, field (layer.merge above) = (field above).or (field layer))
    (reads : ∀ {document source result},
      field (ofDocument document source) = some result ↔ sets document result)
    (documents : List (OrderedMap Text Setting × Option Text)) :
    Prevails (fun (document, _) => sets document) documents
      (field ((layersOf documents).foldl merge empty)) := by
  rw [layersOf, List.foldl_map]
  refine Prevails.foldl unset ?_ documents
  rintro layer ⟨document, source⟩
  dsimp only
  rw [merges]
  cases here : field (ofDocument document source) with
  | some result => exact .inl ⟨result, rfl, reads.mp here⟩
  | none =>
      refine .inr ⟨?_, rfl⟩
      intro result given
      rw [reads.mpr given] at here
      cases here

theorem foldl_merge (start : Layer) (layers : List Layer) :
    layers.foldl merge start = start.merge (layers.foldl merge empty) := by
  induction layers generalizing start with
  | nil => simp
  | cons layer layers induction =>
      rw [List.foldl_cons, List.foldl_cons, induction, induction (empty.merge layer), empty_merge,
        merge_assoc]

theorem sources_foldl_merge (documents : List (OrderedMap Text Setting × Option Text)) :
    ((layersOf documents).foldl merge empty).sources =
      documents.flatMap fun (_, source) => source.toList := by
  induction documents with
  | nil => rfl
  | cons entry documents induction =>
      rw [List.flatMap_cons, ← induction, layersOf, List.map_cons, List.foldl_cons, empty_merge,
        foldl_merge]
      simp [merge, layersOf]

theorem freeze_defaults_merge (layer : Layer) :
    (defaults.merge layer).freeze =
      ⟨layer.strict.getD false, layer.window.getD 100, layer.hint, layer.sources⟩ := by
  -- The defaults of merging are those of freezing.
  obtain ⟨strict, window, hint, sources⟩ := layer
  cases strict <;> cases window <;> cases hint <;> rfl

/-- Layers that are merged in groups. -/
inductive Grouping where
  | nothing
  | single (layer : Layer)
  | both (lower upper : Grouping)

namespace Grouping

def layers : Grouping → List Layer
  | nothing => []
  | single layer => [layer]
  | both lower upper => lower.layers ++ upper.layers

def merged : Grouping → Layer
  | nothing => empty
  | single layer => layer
  | both lower upper => lower.merged.merge upper.merged

theorem merged_eq_foldl (group : Grouping) : group.merged = group.layers.foldl merge empty := by
  induction group with
  | nothing => rfl
  | single layer => rw [merged, layers, List.foldl_cons, List.foldl_nil, empty_merge]
  | both lower upper lowerInduction upperInduction =>
      rw [merged, layers, List.foldl_append, foldl_merge, lowerInduction, upperInduction]

end Grouping

end Layer

namespace Configuration

variable {ε : Type}

theorem merged_eq (document : Text → Except ε (OrderedMap Text Setting)) (layer : Layer)
    (names : List Text) :
    merged document layer names =
      (names.mapM fun name => (document name).map (·, some name)).map
        fun documents => (Layer.layersOf documents).foldl Layer.merge layer := by
  induction names generalizing layer with
  | nil => rfl
  | cons name names induction =>
      rw [merged, List.mapM_cons]
      cases document name with
      | error fault => rfl
      | ok content =>
          dsimp only
          rw [induction]
          cases names.mapM fun name => (document name).map (·, some name)
          all_goals rfl

end Configuration

/-- The settings of documents are, for each option by itself, what the last document says that
sets the option, and else the default; their sources come in the order of the documents.  Files
give the settings of the documents in them, however documents are read from files.  How the merging is grouped, with or without layers
that set nothing, makes no difference.  What stands beside the table of options decides nothing,
and what the table says about one name decides nothing but the option of that name. -/
theorem settings_of_layers :
    (∀ documents : List (OrderedMap Text Setting × Option Text),
      ∃ strict window hint,
        Prevails (fun (document, _) => Layer.Sets strictOption Setting.IsFlag document)
          documents strict ∧
        Prevails (fun (document, _) => Layer.Sets windowOption Setting.IsWindow document)
          documents window ∧
        Prevails (fun (document, _) => Layer.Sets hintOption Setting.IsHint document)
          documents hint ∧
          ((Layer.layersOf documents).foldl Layer.merge .defaults).freeze =
            ⟨strict.getD false, window.getD 100, hint,
              documents.flatMap fun (_, source) => source.toList⟩) ∧
    (∀ {ε : Type} (document : Text → Except ε (OrderedMap Text Setting)) (names : List Text),
      Configuration.load document names =
        (names.mapM fun name => (document name).map (·, some name)).map
          fun documents => ((Layer.layersOf documents).foldl Layer.merge .defaults).freeze) ∧
    (∀ layer : Layer, Layer.empty.merge layer = layer ∧ layer.merge .empty = layer) ∧
    (∀ lower layer upper : Layer,
      (lower.merge layer).merge upper = lower.merge (layer.merge upper)) ∧
    (∀ group : Layer.Grouping, Layer.defaults.merge group.merged =
      group.layers.foldl Layer.merge .defaults) ∧
    (∀ document changed source,
      (∀ options, Layer.HasOptions changed options ↔ Layer.HasOptions document options) →
        Layer.ofDocument changed source = Layer.ofDocument document source) ∧
    ∀ document options changed others source name,
      Layer.HasOptions document options → Layer.HasOptions changed others →
        (∀ other, other ≠ name → others.find? other = options.find? other) →
          let before := Layer.ofDocument document source
          let after := Layer.ofDocument changed source
          (strictOption ≠ name → after.strict = before.strict) ∧
            (windowOption ≠ name → after.window = before.window) ∧
            (hintOption ≠ name → after.hint = before.hint) ∧ after.sources = before.sources := by
  refine ⟨?_, ?_, ?_, Layer.merge_assoc, ?_, fun _ _ _ => Layer.ofDocument_congr, ?_⟩
  · intro documents
    refine ⟨_, _, _,
      Layer.prevails_foldl_merge rfl (fun _ _ => rfl) Layer.strict_ofDocument_eq_some_iff documents,
      Layer.prevails_foldl_merge rfl (fun _ _ => rfl) Layer.window_ofDocument_eq_some_iff documents,
      Layer.prevails_foldl_merge rfl (fun _ _ => rfl) Layer.hint_ofDocument_eq_some_iff documents, ?_⟩
    rw [← Layer.sources_foldl_merge, ← Layer.freeze_defaults_merge, ← Layer.foldl_merge]
  · intro ε document names
    rw [Configuration.load, Configuration.merged_eq]
    cases names.mapM fun name => (document name).map (·, some name)
    all_goals rfl
  · exact fun layer => ⟨layer.empty_merge, layer.merge_empty⟩
  · intro group
    rw [Layer.foldl_merge, group.merged_eq_foldl]
  · intro document options changed others source name found foundOthers agree
    obtain ⟨strict, window, hint⟩ := Layer.ofDocument_of_agree found foundOthers agree
    refine ⟨strict, window, hint, ?_⟩
    rw [Layer.sources_ofDocument, Layer.sources_ofDocument]

/-- A document with the table of options at the top, alone or beside another entry, below one with
the table within that of this tool, in which the window is not positive or not even a number. -/
theorem settings_of_layers_window :
    let lower : OrderedMap Text Setting :=
      [(optionTable, .table [(strictOption, .flag true), (windowOption, .integer 300)])]
    let hint : Text × Setting := (hintOption, .text " microdescriptor ".toList)
    let upper := fun window : Setting => ([("tool".toList, .table [("descparse".toList, .table
      [(optionTable, .table [(windowOption, window), hint])])])] : OrderedMap Text Setting)
    let documents := [(lower, some "a".toList), (upper (.integer 0), none)]
    ((Layer.layersOf documents).foldl Layer.merge .defaults).freeze =
        ⟨true, 300, some "microdescriptor".toList, ["a".toList]⟩ ∧
      (∃ window, Prevails (fun (document, _) => Layer.Sets windowOption Setting.IsWindow document)
        documents window ∧ window.getD 100 = 300) ∧
      Layer.ofDocument (("project".toList, .flag true) :: lower) none =
        Layer.ofDocument lower none ∧
      (Layer.ofDocument (upper (.text "wide".toList)) none).hint =
        (Layer.ofDocument (upper (.integer 0)) none).hint := by
  intro lower hint upper documents
  obtain ⟨settings, _, _, _, _, beside, apart⟩ := settings_of_layers
  have result : ((Layer.layersOf documents).foldl Layer.merge .defaults).freeze =
      ⟨true, 300, some "microdescriptor".toList, ["a".toList]⟩ := by rfl
  refine ⟨result, ?_, ?_, ?_⟩
  · obtain ⟨_, window, _, _, prevails, _, same⟩ := settings documents
    rw [result, Settings.mk.injEq] at same
    exact ⟨window, prevails, same.2.1.symm⟩
  · apply beside
    intro options
    constructor
    · rintro (found | ⟨notAtTop, foundTools, foundTool, found⟩)
      · exact .top found
      · exact .tool notAtTop foundTools foundTool found
    · rintro (found | ⟨notAtTop, foundTools, foundTool, found⟩)
      · exact .top found
      · exact .tool notAtTop foundTools foundTool found
  · refine (apart (upper (.integer 0)) _ (upper (.text "wide".toList)) _ none windowOption
      (.tool (.inl rfl) rfl rfl rfl) (.tool (.inl rfl) rfl rfl rfl) ?_).2.2.1 (by decide)
    intro other different
    simp [OrderedMap.find?, Ne.symm different]

end RelayDescriptor
