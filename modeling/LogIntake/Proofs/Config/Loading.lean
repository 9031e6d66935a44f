import LogIntake.Config.Settings
import LogIntake.Proofs.Outcome

/-! Loading settings, read backwards. Settings are loaded from a document that is valid by itself,
and they are those of the document with the values that the environment has for them.
-/

namespace LogIntake.Settings

open Relabel

/-- Settings are valid exactly if no setting has a fault. -/
theorem validate_eq_ok_iff {settings valid : Settings}
    : settings.validate = .ok valid ↔ settings.fault? = none ∧ settings = valid := by
  unfold validate
  cases settings.fault? with
  | some fault => simp
  | none => simp

/-- The first fault of settings is what their check fails with. -/
theorem validate_eq_error_iff {settings : Settings} {cause : SettingsError}
    : settings.validate = .error cause
      ↔ ∃ fault, settings.fault? = some fault ∧ cause = .invalidValue fault := by
  unfold validate
  cases settings.fault? with
  | some fault => simp [eq_comm]
  | none => simp

/-- Level and format are among those that exist and the rules compile, if no setting has a fault. -/
theorem fault?_eq_none_iff {settings : Settings}
    : settings.fault? = none
      ↔ settings.general.logLevel ∈ General.levels
        ∧ settings.general.logFormat ∈ General.formats
        ∧ ∃ rules, Rules.compile settings.target.rules = .ok rules := by
  unfold fault?
  by_cases level : settings.general.logLevel ∈ General.levels
  · by_cases format : settings.general.logFormat ∈ General.formats
    · cases Rules.compile settings.target.rules <;> simp [level, format]
    · simp [level, format]
  · simp [level]

/-- Settings are loaded exactly if those of the document are valid, and if they are so with the
values of the environment in their places.
-/
theorem load_eq_ok_iff {env : NameMap} {document : String} {settings : Settings}
    : load env document = .ok settings
      ↔ ∃ own,
          parse document = .ok own
          ∧ own.fault? = none
          ∧ own.override env = settings
          ∧ settings.fault? = none := by
  unfold load
  simp only [bind_eq_ok_iff, validate_eq_ok_iff]
  constructor
  · rintro ⟨own, parsed, _, ⟨valid, rfl⟩, faultless, rfl⟩
    exact ⟨own, parsed, valid, rfl, faultless⟩
  · rintro ⟨own, parsed, valid, rfl, faultless⟩
    exact ⟨own, parsed, own, ⟨valid, rfl⟩, faultless, rfl⟩

/-- A document that parses is loaded as its settings are checked, without the environment and then
with it.
-/
theorem load_of_parse {env : NameMap} {document : String} {settings : Settings}
    (parsed : parse document = .ok settings)
    : load env document = settings.validate >>= fun valid => (valid.override env).validate := by
  unfold load
  rw [parsed]
  rfl

end LogIntake.Settings
