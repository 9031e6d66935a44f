import LogIntake.Proofs.Command.LabelPrecedence
import LogIntake.Proofs.Config.Loading
import LogIntake.Proofs.Report.Accounting

/-! Which settings and which rules are valid. The commands that check, show and use settings load
them in the same way, and rules are compiled the same whether they are checked or used, so a command
that uses them fails only if the command that checks them does.
-/

namespace LogIntake

open Relabel

-----------------------------------------------------------------------------------------
-- Exit codes
-----------------------------------------------------------------------------------------

theorem CommandError.exitCode_ne_zero (error : CommandError) : error.exitCode ≠ 0 := by
  cases error with
  | load cause => cases cause <;> simp [exitCode]
  | _ => simp [exitCode]

/-- A command exits with zero exactly if it does not fail. -/
theorem Outcome.exitCode_eq_zero_iff {outcome : Outcome}
    : outcome.exitCode = 0 ↔ outcome.error = none := by
  unfold exitCode
  cases outcome.error with
  | none => simp
  | some error => simpa using error.exitCode_ne_zero

-----------------------------------------------------------------------------------------
-- Settings
-----------------------------------------------------------------------------------------

/-- The settings of a file are loaded exactly if the document in it is. -/
theorem Settings.loadFile_eq_ok_iff {files : Files} {env : NameMap} {path : String}
    {settings : Settings}
    : loadFile files env path = .ok settings
      ↔ ∃ document, files.readText path = .ok document ∧ load env document = .ok settings := by
  unfold loadFile
  cases files.readText path with
  | ok document => simp
  | error cause => cases cause <;> simp

/-- Settings that are loaded describe a formatter. Witness: their rules are compiled when they are
checked.
-/
theorem Settings.formatter_of_loadFile {files : Files} {env : NameMap} {path : String}
    {settings : Settings} (loaded : loadFile files env path = .ok settings)
    : ∃ formatter, settings.target.formatter = .ok formatter := by
  obtain ⟨document, _, loaded⟩ := loadFile_eq_ok_iff.mp loaded
  obtain ⟨_, _, _, _, faultless⟩ := load_eq_ok_iff.mp loaded
  obtain ⟨_, _, rules, compiled⟩ := fault?_eq_none_iff.mp faultless
  exact ⟨_, Target.formatter_eq_ok_iff.mpr ⟨rules, compiled, rfl⟩⟩

namespace Command

theorem runValidation_exitCode_iff {surroundings : Surroundings} {path : String}
    {output : OutputFormat}
    : (runValidation surroundings path output).exitCode = 0
      ↔ ∃ settings,
          Settings.loadFile surroundings.files surroundings.environment path = .ok settings := by
  rw [Outcome.exitCode_eq_zero_iff, runValidation, SettingsCheck.ofFile]
  cases Settings.loadFile surroundings.files surroundings.environment path <;>
    simp [SettingsCheck.isValid]

theorem runView_exitCode_iff {surroundings : Surroundings} {path : String}
    {output : OutputFormat}
    : (runView none surroundings path output).exitCode = 0
      ↔ ∃ settings,
          Settings.loadFile surroundings.files surroundings.environment path = .ok settings := by
  rw [Outcome.exitCode_eq_zero_iff, runView, viewSettings]
  cases Settings.loadFile surroundings.files surroundings.environment path with
  | ok settings => exact iff_of_true rfl ⟨settings, rfl⟩
  | error cause => exact iff_of_false nofun nofun

theorem runCheck_exitCode_iff {surroundings : Surroundings} {path : String}
    {output : OutputFormat}
    : (runCheck path surroundings output).exitCode = 0
      ↔ ∃ rules compiled,
          loadRules surroundings.files path = .ok rules ∧ Rules.compile rules = .ok compiled := by
  rw [Outcome.exitCode_eq_zero_iff, runCheck]
  cases loadRules surroundings.files path with
  | error cause => simp [RuleCheck.ofError, RuleCheck.isValid]
  | ok rules =>
      cases compilation : Rules.compile rules <;>
        simp [RuleCheck.ofRules, RuleCheck.isValid, compilation]

end Command

-----------------------------------------------------------------------------------------
-- Formatting nothing
-----------------------------------------------------------------------------------------

namespace FormatArguments

variable {arguments : FormatArguments} {surroundings : Surroundings} {path : String}

/-- A report is made exactly if the settings are loaded, the pipeline is extended, its rules compile
and the input is read.
-/
theorem report_eq_ok_iff {report : Report}
    : arguments.report surroundings path = .ok report
      ↔ ∃ settings target formatter input,
          loadSettings surroundings path = .ok settings
          ∧ arguments.extend surroundings.files settings.target = .ok target
          ∧ target.formatter = .ok formatter
          ∧ arguments.readInput surroundings = .ok input
          ∧ report = (Report.process formatter surroundings.now arguments.push input).1 := by
  unfold FormatArguments.report
  simp only [bind_eq_ok_iff, mapError_eq_ok_iff]
  constructor
  · rintro ⟨settings, loaded, target, extension, formatter, described, input, read, returned⟩
    exact ⟨settings, target, formatter, input, loaded, extension, described, read,
      (Except.ok.inj returned).symm⟩
  · rintro ⟨settings, target, formatter, input, loaded, extension, described, read, rfl⟩
    exact ⟨settings, loaded, target, extension, formatter, described, input, read, rfl⟩

/-- Formatting exits with zero exactly if there is a report without failures. -/
theorem run_exitCode_iff {output : OutputFormat}
    : (arguments.run surroundings path output).exitCode = 0
      ↔ ∃ report, arguments.report surroundings path = .ok report ∧ report.failed = 0 := by
  rw [Outcome.exitCode_eq_zero_iff, run]
  cases arguments.report surroundings path with
  | error cause => exact iff_of_false nofun nofun
  | ok report => simp

/-- On empty input no entry can fail, so all depends on what is loaded. -/
theorem run_nothing_exitCode_iff {output : OutputFormat}
    (noInput : arguments.readInput surroundings = .ok [])
    : (arguments.run surroundings path output).exitCode = 0
      ↔ ∃ settings target formatter,
          loadSettings surroundings path = .ok settings
          ∧ arguments.extend surroundings.files settings.target = .ok target
          ∧ target.formatter = .ok formatter := by
  rw [run_exitCode_iff]
  constructor
  · rintro ⟨report, reported, _⟩
    obtain ⟨settings, target, formatter, _, loaded, extension, described, _⟩ :=
      report_eq_ok_iff.mp reported
    exact ⟨settings, target, formatter, loaded, extension, described⟩
  · rintro ⟨settings, target, formatter, loaded, extension, described⟩
    refine ⟨_, report_eq_ok_iff.mpr ⟨settings, target, formatter, [], loaded, extension, described,
      noInput, rfl⟩, ?_⟩
    rfl

theorem loadSettings_eq_ok_iff {settings : Settings} {contents : Contents}
    (exist : surroundings.files path = .ok contents)
    : loadSettings surroundings path = .ok settings
      ↔ Settings.loadFile surroundings.files surroundings.environment path = .ok settings := by
  have found : surroundings.files.hasPath path = .ok true := by rw [Files.hasPath, exist]
  unfold loadSettings
  rw [found]
  exact mapError_eq_ok_iff

/-- Without a file and without variables the settings are the default ones. -/
theorem loadSettings_default (missing : surroundings.files path = .error .notFound)
    (unset : ∀ name ∈ Settings.variableNames, surroundings.environment.get? name = none)
    : loadSettings surroundings path = .ok .default := by
  have absent : surroundings.files.hasPath path = .ok false := by rw [Files.hasPath, missing]
  have same : Settings.default.override surroundings.environment = .default := by
    simp only [Settings.variableNames, List.forall_mem_cons] at unset
    obtain ⟨level, format, incoming, full, _⟩ := unset
    simp only [Settings.override, level, format, incoming, full]
    rfl
  unfold loadSettings
  rw [absent]
  change (Settings.loadDefault surroundings.environment).mapError _ = _
  rw [Settings.loadDefault, same]
  rfl

/-- Without labels and a file of rules, the pipeline compiles the rules that it had before. -/
theorem extend_plain (noLabels : arguments.labels = []) (noRules : arguments.ruleFile = none)
    (files : Files) (target : Target)
    : ∃ extended,
        arguments.extend files target = .ok extended ∧ extended.rules = target.rules := by
  refine ⟨_, extend_eq_ok_iff.mpr ⟨target.labels, [], ?_, ?_, rfl⟩, List.append_nil _⟩
  · rw [noLabels]
    rfl
  · rw [fileRules, noRules]

end FormatArguments

/-- A file of settings, or a directory in its place, is valid to all commands or to none: checking
it, showing it and formatting nothing by it exit with zero together, and then it describes a
formatter. Without such a file and without variables, the same holds of checking a file of rules
and formatting nothing by it.
-/
theorem commands_agree_on_validity (surroundings : Surroundings) (path : String)
    (arguments : FormatArguments) (logLevel : Command → Option String)
    (output : Command → OutputFormat) (noInput : arguments.readInput surroundings = .ok [])
    (noLabels : arguments.labels = [])
    : let succeeds := fun command =>
        (Invocation.run ⟨path, logLevel command, output command, command⟩ surroundings).exitCode = 0
      ((∃ contents, surroundings.files path = .ok contents)
        → arguments.ruleFile = none
        → (succeeds .validateSettings ↔ succeeds (.showSettings none))
          ∧ (succeeds (.showSettings none) ↔ succeeds (.format arguments))
          ∧ (succeeds .validateSettings
            → ∃ settings formatter,
                Settings.loadFile surroundings.files surroundings.environment path = .ok settings
                ∧ settings.target.formatter = .ok formatter))
      ∧ (surroundings.files path = .error .notFound
        → (∀ name ∈ Settings.variableNames, surroundings.environment.get? name = none)
        → ∀ file,
            arguments.ruleFile = some file
            → (succeeds (.checkRules file) ↔ succeeds (.format arguments))) := by
  intro succeeds
  have formats
      : succeeds (.format arguments)
        ↔ ∃ settings target formatter,
            FormatArguments.loadSettings surroundings path = .ok settings
            ∧ arguments.extend surroundings.files settings.target = .ok target
            ∧ target.formatter = .ok formatter :=
    FormatArguments.run_nothing_exitCode_iff noInput
  constructor
  · rintro ⟨contents, exist⟩ noRules
    have validates : succeeds .validateSettings ↔ _ := Command.runValidation_exitCode_iff
    have shows : succeeds (.showSettings none) ↔ _ := Command.runView_exitCode_iff
    refine ⟨validates.trans shows.symm, shows.trans ?_, fun valid => ?_⟩
    · simp only [formats, FormatArguments.loadSettings_eq_ok_iff exist]
      constructor
      · rintro ⟨settings, loaded⟩
        obtain ⟨formatter, described⟩ := Settings.formatter_of_loadFile loaded
        obtain ⟨rules, compiled, _⟩ := Target.formatter_eq_ok_iff.mp described
        obtain ⟨extended, extension, same⟩ :=
          FormatArguments.extend_plain noLabels noRules surroundings.files settings.target
        exact ⟨settings, extended, _, loaded, extension,
          Target.formatter_eq_ok_iff.mpr ⟨rules, same ▸ compiled, rfl⟩⟩
      · rintro ⟨settings, _, _, loaded, _⟩
        exact ⟨settings, loaded⟩
    · obtain ⟨settings, loaded⟩ := validates.mp valid
      obtain ⟨formatter, described⟩ := Settings.formatter_of_loadFile loaded
      exact ⟨settings, formatter, loaded, described⟩
  · intro missing unset file named
    have checks : succeeds (.checkRules file) ↔ _ := Command.runCheck_exitCode_iff
    rw [checks, formats, FormatArguments.loadSettings_default missing unset]
    have rulesOf : arguments.fileRules surroundings.files = loadRules surroundings.files file := by
      rw [FormatArguments.fileRules, named]
    constructor
    · rintro ⟨rules, compiled, read, compiles⟩
      have extension := FormatArguments.extend_eq_ok_iff.mpr
        ⟨Settings.default.target.labels, rules, by rw [noLabels]; rfl, rulesOf.trans read, rfl⟩
      exact ⟨.default, _, _, rfl, extension,
        Target.formatter_eq_ok_iff.mpr ⟨compiled, compiles, rfl⟩⟩
    · rintro ⟨settings, target, formatter, same, extension, described⟩
      obtain rfl := Except.ok.inj same
      obtain ⟨_, rules, _, read, rfl⟩ := FormatArguments.extend_eq_ok_iff.mp extension
      obtain ⟨compiled, compiles, _⟩ := Target.formatter_eq_ok_iff.mp described
      exact ⟨rules, compiled, rulesOf.symm.trans read, compiles⟩

/-- Settings with a level are valid to all three commands under a variable that sets a flag, and a
file with one rule is valid to both others.
-/
theorem commands_agree_on_validity_level
    : let files : Files := fun path =>
        if path = "s.toml" then
          .ok (.bytes (Text.Utf8.encode "[general]\nlog_level = \"debug\"\n"))
        else if path = "r.yaml" then .ok (.bytes (Text.Utf8.encode "- target_label: level\n"))
        else .error .notFound
      let arguments : FormatArguments := ⟨none, false, none, [], false, false⟩
      let around : NameMap → Surroundings :=
        fun environment => ⟨files, environment, .ok [], .epoch, false⟩
      let succeeds : Surroundings → String → Command → Prop := fun surroundings path command =>
        (Invocation.run ⟨path, none, .json, command⟩ surroundings).exitCode = 0
      let flagged := around (.ofList [("GCPLOG_TARGET_USE_FULL_LINE", "true")])
      (succeeds flagged "s.toml" .validateSettings
        ∧ succeeds flagged "s.toml" (.showSettings none)
        ∧ succeeds flagged "s.toml" (.format arguments))
      ∧ succeeds (around .empty) "t.toml" (.checkRules "r.yaml")
      ∧ succeeds (around .empty) "t.toml"
          (.format { arguments with ruleFile := some "r.yaml" }) := by
  intro files arguments around succeeds flagged
  constructor
  · have validates : succeeds flagged "s.toml" .validateSettings := by decide +kernel
    obtain ⟨shows, formats, _⟩ :=
      (commands_agree_on_validity flagged "s.toml" arguments (fun _ => none) (fun _ => .json) rfl
        rfl).1 ⟨_, rfl⟩ rfl
    exact ⟨validates, shows.mp validates, formats.mp (shows.mp validates)⟩
  · have checks : succeeds (around .empty) "t.toml" (.checkRules "r.yaml") := by decide +kernel
    have agrees :=
      (commands_agree_on_validity (around .empty) "t.toml"
        { arguments with ruleFile := some "r.yaml" } (fun _ => none) (fun _ => .json) rfl rfl).2
        rfl (fun _ _ => rfl) "r.yaml" rfl
    exact ⟨checks, agrees.mp checks⟩

end LogIntake
