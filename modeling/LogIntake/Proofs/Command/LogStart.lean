import LogIntake.Command.Log
import LogIntake.Proofs.Command.Validity

/-! Setting up the log. A file of settings never stands in its way: a file that is valid states a
format that exists, and one that is not valid is passed over. So only the environment can name a
format that is unknown. Settings that a command loads are kept by the log too.
-/

namespace LogIntake

namespace Settings

variable {files : Files} {env : NameMap} {path : String} {settings : Settings}

/-- The settings that a file states are read exactly if the document in it is valid by itself. -/
theorem readFile_eq_ok_iff
    : readFile files path = .ok settings
      ↔ ∃ document,
          files.readText path = .ok document
          ∧ parse document = .ok settings
          ∧ settings.fault? = none := by
  unfold readFile
  cases files.readText path with
  | error cause => cases cause <;> simp
  | ok document =>
      simp only [mapError_eq_ok_iff, bind_eq_ok_iff, validate_eq_ok_iff, Except.ok.injEq]
      constructor
      · rintro ⟨own, parsed, valid, rfl⟩
        exact ⟨document, rfl, parsed, valid⟩
      · rintro ⟨_, rfl, parsed, valid⟩
        exact ⟨settings, parsed, valid, rfl⟩

/-- Settings are loaded from a file by reading what it states, and then the environment. -/
theorem loadFile_eq_ok_iff_readFile
    : loadFile files env path = .ok settings
      ↔ ∃ own,
          readFile files path = .ok own ∧ own.override env = settings ∧ settings.fault? = none := by
  simp only [loadFile_eq_ok_iff, load_eq_ok_iff, readFile_eq_ok_iff]
  constructor
  · rintro ⟨document, read, own, parsed, valid, same, faultless⟩
    exact ⟨own, ⟨document, read, parsed, valid⟩, same, faultless⟩
  · rintro ⟨own, ⟨document, read, parsed, valid⟩, same, faultless⟩
    exact ⟨document, read, own, parsed, valid, same, faultless⟩

end Settings

namespace Invocation

variable {invocation : Invocation} {files : Files} {environment : NameMap}

/-- The format of the log is that of the environment, or else one that exists. -/
theorem exists_logFormat (invocation : Invocation) (files : Files) (environment : NameMap)
    : ∃ stated ∈ General.formats,
        (invocation.logSettings files environment).logFormat
        = (environment.get? "GCPLOG_GENERAL_LOG_FORMAT").getD stated := by
  unfold logSettings
  cases read : Settings.readFile files invocation.settingsPath with
  | error cause =>
      refine ⟨General.default.logFormat, by decide, ?_⟩
      cases invocation.logLevel <;> rfl
  | ok own =>
      obtain ⟨_, _, _, valid⟩ := Settings.readFile_eq_ok_iff.mp read
      obtain ⟨_, format, _⟩ := Settings.fault?_eq_none_iff.mp valid
      refine ⟨own.general.logFormat, format, ?_⟩
      cases invocation.logLevel <;> rfl

/-- The log cannot be set up exactly if the environment names a format that does not exist, and the
error names it.
-/
theorem startLog_eq_error_iff {cause : LogError}
    : invocation.startLog files environment = .error cause
      ↔ ∃ format,
          environment.get? "GCPLOG_GENERAL_LOG_FORMAT" = some format
          ∧ format ∉ General.formats
          ∧ cause = .unknownFormat format := by
  obtain ⟨stated, exist, same⟩ := exists_logFormat invocation files environment
  rw [startLog, same]
  cases environment.get? "GCPLOG_GENERAL_LOG_FORMAT" with
  | none => simp [exist]
  | some format =>
      by_cases known : format ∈ General.formats
      · simp [known]
      · simp [known, eq_comm]

/-- Settings that the command loads are those of the log, but for a level on the command line. -/
theorem startLog_of_loadFile {settings : Settings}
    (loaded : Settings.loadFile files environment invocation.settingsPath = .ok settings)
    : invocation.startLog files environment
      = .ok
          { settings.general with
            logLevel := invocation.logLevel.getD settings.general.logLevel } := by
  obtain ⟨own, read, rfl, faultless⟩ := Settings.loadFile_eq_ok_iff_readFile.mp loaded
  obtain ⟨_, format, _⟩ := Settings.fault?_eq_none_iff.mp faultless
  have general
      : invocation.logSettings files environment
        = { (own.override environment).general with
            logLevel := invocation.logLevel.getD (own.override environment).general.logLevel } := by
    rw [logSettings, read]
    cases invocation.logLevel <;> rfl
  rw [startLog, general]
  exact if_pos (by simpa using format)

end Invocation

end LogIntake
