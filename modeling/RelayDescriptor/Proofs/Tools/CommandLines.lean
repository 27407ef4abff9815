import Mathlib.Data.List.Nodup
import RelayDescriptor.Tools.Invocation
import RelayDescriptor.Proofs.Reading.Steps

/-!
# Command lines

Every combination of options can be asked for: the words of the options are read as those options,
in whichever number they are given, and whatever the paths behind them look like.
-/

namespace RelayDescriptor

/-- An option with the values of all its occurrences, which are empty for an option without
values. -/
abbrev OptionGroup := OptionRule × List Text

namespace OptionGroup

/-- The words of all occurrences of an option. -/
def words (group : OptionGroup) : List Text :=
  group.2.flatMap fun value =>
    if group.1.valued then [group.1.long.toList, value] else [group.1.long.toList]

/-- All occurrences of an option. -/
def given (group : OptionGroup) : List GivenOption :=
  group.2.map fun value => ⟨group.1.long, value⟩

end OptionGroup

namespace Arguments

variable {rules : List OptionRule} {rule : OptionRule} {words more : List Text}
  {given others : List GivenOption} {group : OptionGroup} {groups : List OptionGroup}

/-- Words give options, whatever stands behind them. -/
def Give (rules : List OptionRule) (words : List Text) (given : List GivenOption) : Prop :=
  ∀ mixed rest, read rules mixed (words ++ rest) =
    (read rules mixed rest).map (withOptions given)

theorem give_nil : Give rules [] [] := by
  intro mixed rest
  rw [List.nil_append]
  cases read rules mixed rest <;> rfl

theorem Give.append (first : Give rules words given) (second : Give rules more others) :
    Give rules (words ++ more) (given ++ others) := by
  intro mixed rest
  rw [List.append_assoc, first, second]
  cases read rules mixed rest with
  | error error => rfl
  | ok arguments => simp only [Except.map, withOptions, List.append_assoc]

/-- The long name of a rule is read as an option of that rule. -/
structure IsLong (rules : List OptionRule) (rule : OptionRule) : Prop where
  found : longRule? rules rule.long.toList = some rule
  isOption : isOption rule.long.toList = true
  other : rule.long.toList ≠ ['-', '-']
  whole : nameAndValue rule.long.toList = (rule.long.toList, none)

theorem IsLong.give_value (long : IsLong rules rule) {value : Text}
    (fits : rule.valued = false → value = []) :
    Give rules (if rule.valued then [rule.long.toList, value] else [rule.long.toList])
      [⟨rule.long, value⟩] := by
  have named : option rules rule.long.toList =
      if rule.valued then .ok (.pending rule.long) else .ok (.complete [⟨rule.long, []⟩]) := by
    rw [option, long.whole]
    dsimp only
    rw [long.found]
  intro mixed rest
  cases valued : rule.valued with
  | true =>
      rw [if_pos rfl, List.cons_append, read, if_neg long.other, if_pos long.isOption, named,
        valued]
      rfl
  | false =>
      rw [if_neg Bool.false_ne_true, List.singleton_append, read, if_neg long.other,
        if_pos long.isOption, named, valued, fits valued]
      rfl

/-- An option that is given with values where it has any. -/
structure IsGroup (rules : List OptionRule) (group : OptionGroup) : Prop where
  long : IsLong rules group.1
  fits : group.1.valued = false → ∀ value ∈ group.2, value = []

theorem IsGroup.give (isGroup : IsGroup rules group) : Give rules group.words group.given := by
  obtain ⟨rule, values⟩ := group
  obtain ⟨long, fits⟩ := isGroup
  induction values with
  | nil => exact give_nil
  | cons value values induction =>
      refine (long.give_value fun plain => fits plain value List.mem_cons_self).append
        (induction long fun plain value member => ?_)
      exact fits plain value (List.mem_cons_of_mem _ member)

/-- The words of groups of options give all their occurrences. -/
theorem give_groups (each : ∀ group ∈ groups, IsGroup rules group) :
    Give rules (groups.flatMap OptionGroup.words) (groups.flatMap OptionGroup.given) := by
  induction groups with
  | nil => exact give_nil
  | cons group groups induction =>
      obtain ⟨here, later⟩ := List.forall_mem_cons.mp each
      exact here.give.append (induction later)

/-! ## What is known of the arguments -/

variable {long : String} {paths : List Text}

theorem values_given_self (group : OptionGroup) :
    (group.given.filter fun given => given.long = group.1.long).map GivenOption.value =
      group.2 := by
  rw [List.filter_eq_self.mpr]
  · simp [OptionGroup.given, Function.comp_def]
  · intro option member
    obtain ⟨value, _, rfl⟩ := List.mem_map.mp member
    exact decide_eq_true rfl

theorem filter_given_of_ne (different : group.1.long ≠ long) :
    group.given.filter (fun given => given.long = long) = [] := by
  rw [List.filter_eq_nil_iff]
  intro option member
  obtain ⟨value, _, rfl⟩ := List.mem_map.mp member
  simpa using different

/-- The values of an option are those of its group. -/
theorem values_of_mem (distinct : (groups.map fun group => group.1.long).Nodup)
    (member : group ∈ groups) :
    values group.1.long ⟨groups.flatMap OptionGroup.given, paths⟩ = group.2 := by
  rw [values]
  induction groups with
  | nil => cases member
  | cons first groups induction =>
      rw [List.map_cons, List.nodup_cons] at distinct
      rw [List.flatMap_cons, List.filter_append, List.map_append]
      rcases List.mem_cons.mp member with rfl | later
      · have others : (groups.flatMap OptionGroup.given).filter
            (fun given => given.long = group.1.long) = [] := by
          rw [List.filter_flatMap, List.flatMap_eq_nil_iff]
          intro other inside
          apply filter_given_of_ne
          intro same
          exact distinct.1 (List.mem_map.mpr ⟨other, inside, same⟩)
        rw [values_given_self, others, List.map_nil, List.append_nil]
      · have different : first.1.long ≠ group.1.long := fun same =>
          distinct.1 (List.mem_map.mpr ⟨group, later, same.symm⟩)
        rw [filter_given_of_ne different, List.map_nil, List.nil_append]
        exact induction distinct.2 later

theorem count_eq_length (arguments : Arguments) :
    arguments.count long = (arguments.values long).length := by
  rw [count, values, List.length_map, List.countP_eq_length_filter]

theorem has_eq_of_values {arguments : Arguments} {values : List Text}
    (same : arguments.values long = values) : arguments.has long = !values.isEmpty := by
  rw [has, count_eq_length, same]
  cases values <;> rfl

end Arguments

/-! ## The words of options -/

/-- The name of a mode of colours. -/
def ColourMode.name : ColourMode → String
  | .auto => "auto"
  | .always => "always"
  | .never => "never"

/-- The name of a form of a report. -/
def Format.name : Format → String
  | .text => "text"
  | .json => "json"

/-- The values of an option without values, which is given once or not at all. -/
def flagValues (given : Bool) : List Text := if given then [[]] else []

/-- The occurrences of the common options. -/
def CommonOptions.groups (common : CommonOptions) : List OptionGroup :=
  Invocation.commonRules.zip
    [List.replicate common.verbose [], List.replicate common.quiet [],
      common.colour.toList.map fun mode => mode.name.toList, flagValues common.noColour, []]

/-- The occurrences of the options of the command that parses documents. -/
def ParseOptions.groups (options : ParseOptions) : List OptionGroup :=
  Invocation.parseRules.zip
    [flagValues options.strict, options.hint.toList, options.configuration,
      flagValues options.noConfiguration, [options.format.name.toList], []]

/-- A command line that parses documents.  All that stands behind the double minus sign is a
path. -/
def commandLine (common : CommonOptions) (options : ParseOptions) : List Text :=
  common.groups.flatMap OptionGroup.words ++
    "parse".toList :: (options.groups.flatMap OptionGroup.words ++ ['-', '-'] :: options.paths)

namespace Invocation

open Arguments (IsGroup IsLong give_groups has_eq_of_values values_of_mem)

variable {environment : Environment} {common : CommonOptions} {options : ParseOptions}

theorem eq_nil_of_mem_flagValues {given : Bool} : ∀ value ∈ flagValues given, value = [] := by
  cases given <;> simp [flagValues]

theorem isLong_of_mem_common : ∀ rule ∈ commonRules, IsLong commonRules rule := by
  simp only [commonRules, List.forall_mem_cons]
  exact ⟨⟨rfl, rfl, by decide, rfl⟩, ⟨rfl, rfl, by decide, rfl⟩, ⟨rfl, rfl, by decide, rfl⟩,
    ⟨rfl, rfl, by decide, rfl⟩, ⟨rfl, rfl, by decide, rfl⟩, by simp⟩

theorem isLong_of_mem_parse : ∀ rule ∈ parseRules, IsLong parseRules rule := by
  simp only [parseRules, List.forall_mem_cons]
  exact ⟨⟨rfl, rfl, by decide, rfl⟩, ⟨rfl, rfl, by decide, rfl⟩, ⟨rfl, rfl, by decide, rfl⟩,
    ⟨rfl, rfl, by decide, rfl⟩, ⟨rfl, rfl, by decide, rfl⟩, ⟨rfl, rfl, by decide, rfl⟩, by simp⟩

theorem isGroup_of_mem_common : ∀ group ∈ common.groups, IsGroup commonRules group := by
  have fits : ∀ group ∈ common.groups, group.1.valued = false → ∀ value ∈ group.2, value = [] := by
    simp only [CommonOptions.groups, commonRules, List.zip_cons_cons, List.zip_nil_right,
      List.forall_mem_cons]
    exact ⟨fun _ _ => List.eq_of_mem_replicate, fun _ _ => List.eq_of_mem_replicate, nofun,
      fun _ => eq_nil_of_mem_flagValues, nofun, nofun⟩
  exact fun group member =>
    ⟨isLong_of_mem_common group.1 (List.of_mem_zip member).1, fits group member⟩

theorem isGroup_of_mem_parse : ∀ group ∈ options.groups, IsGroup parseRules group := by
  have fits : ∀ group ∈ options.groups, group.1.valued = false → ∀ value ∈ group.2, value = [] := by
    simp only [ParseOptions.groups, parseRules, formatRule, List.zip_cons_cons,
      List.zip_nil_right, List.forall_mem_cons]
    exact ⟨fun _ => eq_nil_of_mem_flagValues, nofun, nofun, fun _ => eq_nil_of_mem_flagValues,
      nofun, nofun, nofun⟩
  exact fun group member =>
    ⟨isLong_of_mem_parse group.1 (List.of_mem_zip member).1, fits group member⟩

theorem not_isEmpty_flagValues (given : Bool) : (!(flagValues given).isEmpty) = given := by
  cases given <;> rfl

/-- The arguments that the words of the options are read as. -/
def parseArguments (options : ParseOptions) : Arguments :=
  ⟨options.groups.flatMap OptionGroup.given, options.paths⟩

theorem values_parseArguments {group : OptionGroup} (member : group ∈ options.groups) :
    (parseArguments options).values group.1.long = group.2 := by
  have distinct : (options.groups.map fun group => group.1.long).Nodup := by
    show ["--strict", "--type", "--config", "--no-config", "--format", "--help"].Nodup
    decide
  exact values_of_mem distinct member

theorem parseTask_parseArguments (noDirectory : ∀ name ∈ options.configuration,
      environment.entry name ≠ .directory) :
    parseTask environment (parseArguments options) = .ok (.parse options) := by
  have known (group : OptionGroup) (member : group ∈ options.groups) :
      (parseArguments options).values group.1.long = group.2 := values_parseArguments member
  simp only [ParseOptions.groups, parseRules, List.zip_cons_cons, List.zip_nil_right,
    List.forall_mem_cons] at known
  obtain ⟨strict, hint, configuration, without, format, _⟩ := known
  have form : Invocation.format (parseArguments options) = .ok options.format := by
    rw [Invocation.format, Arguments.choice?, Arguments.value?, format]
    cases options.format <;> rfl
  have given : (parseArguments options).value? "--type" = options.hint := by
    rw [Arguments.value?, hint]
    cases options.hint <;> rfl
  have files : options.configuration.find? (fun name => environment.entry name = .directory) =
      none := by
    rw [List.find?_eq_none]
    intro name member
    simpa using noDirectory name member
  rw [parseTask, configuration, form]
  simp only [bind, Except.bind, files, has_eq_of_values strict, has_eq_of_values without,
    not_isEmpty_flagValues, given]
  rfl

theorem taskOf_words (noDirectory : ∀ name ∈ options.configuration,
      environment.entry name ≠ .directory) :
    taskOf parseRules (parseTask environment)
      (options.groups.flatMap OptionGroup.words ++ ['-', '-'] :: options.paths) =
        .ok (.parse options) := by
  have arguments : Arguments.read parseRules true
      (options.groups.flatMap OptionGroup.words ++ ['-', '-'] :: options.paths) =
        .ok (parseArguments options) := by
    rw [give_groups isGroup_of_mem_parse, Arguments.read, if_pos rfl]
    simp [Except.map, Arguments.withOptions, parseArguments]
  have help : ((helpRule, []) : OptionGroup) ∈ options.groups := by
    simp [ParseOptions.groups, parseRules]
  have noHelp := has_eq_of_values (values_parseArguments help)
  rw [taskOf, arguments]
  simp only [bind, Except.bind, noHelp, List.isEmpty_nil, Bool.not_true, Bool.false_eq_true,
    if_false]
  exact parseTask_parseArguments noDirectory

/-- Every combination of options is asked for by a command line. -/
theorem read_commandLine (common : CommonOptions) (noDirectory : ∀ name ∈ options.configuration,
      environment.entry name ≠ .directory) :
    Invocation.read environment (commandLine common options) =
      .ok (.task common (.ok (.parse options))) := by
  let rest := "parse".toList :: (options.groups.flatMap OptionGroup.words ++
    ['-', '-'] :: options.paths)
  let arguments : Arguments := ⟨common.groups.flatMap OptionGroup.given, rest⟩
  have distinct : (common.groups.map fun group => group.1.long).Nodup := by
    show ["--verbose", "--quiet", "--color", "--no-color", "--help"].Nodup
    decide
  have known (group : OptionGroup) (member : group ∈ common.groups) :
      arguments.values group.1.long = group.2 := values_of_mem distinct member
  simp only [CommonOptions.groups, commonRules, List.zip_cons_cons, List.zip_nil_right,
    List.forall_mem_cons] at known
  obtain ⟨verbose, quiet, colour, plain, help, _⟩ := known
  have words : Arguments.read commonRules false (commandLine common options) = .ok arguments := by
    rw [commandLine, give_groups isGroup_of_mem_common, Arguments.read, if_neg (by decide),
      if_neg (by decide), if_neg (by decide)]
    simp [Except.map, Arguments.withOptions, arguments, rest]
  have mode : arguments.choice? "--color" ColourMode.named = .ok common.colour := by
    rw [Arguments.choice?, Arguments.value?, colour]
    cases common.colour with
    | none => rfl
    | some mode => cases mode <;> rfl
  have counts : arguments.count "--verbose" = common.verbose ∧
      arguments.count "--quiet" = common.quiet := by
    rw [Arguments.count_eq_length, Arguments.count_eq_length, verbose, quiet]
    simp
  have noHelp : arguments.has helpRule.long = false := has_eq_of_values help
  have noColour : arguments.has "--no-color" = common.noColour := by
    rw [has_eq_of_values plain, not_isEmpty_flagValues]
  have command : command? environment "parse".toList =
      some (taskOf parseRules (parseTask environment)) := rfl
  have positional : arguments.positional = rest := rfl
  rw [Invocation.read, words]
  simp only [bind, Except.bind, noHelp, Bool.false_eq_true, if_false, mode, counts, noColour,
    positional, rest, command]
  exact congrArg (fun task => Except.ok (Request.task common (task.mapError refusal)))
    (taskOf_words noDirectory)

end Invocation

end RelayDescriptor
