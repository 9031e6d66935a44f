import LogIntake.Proofs.Config.Loading

/-! What a document says about a setting that the environment overrides. The value is gone from the
settings that are loaded, but it was checked before: a document with a value that the setting may
not have is refused, whatever the environment puts in its place.
-/

namespace LogIntake.Settings

open Relabel

/-- A setting that a variable of the environment overrides. -/
inductive Overridable where
  | logLevel
  | logFormat
  | useIncomingTimestamp
  | useFullLine

namespace Overridable

/-- The environment has a value for the setting; for a flag, one that spells a flag. -/
def IsSetBy (env : NameMap) : Overridable → Prop
  | .logLevel => ∃ value, env.get? "GCPLOG_GENERAL_LOG_LEVEL" = some value
  | .logFormat => ∃ value, env.get? "GCPLOG_GENERAL_LOG_FORMAT" = some value
  | .useIncomingTimestamp =>
      env.get? "GCPLOG_TARGET_USE_INCOMING_TIMESTAMP" = some "true"
      ∨ env.get? "GCPLOG_TARGET_USE_INCOMING_TIMESTAMP" = some "false"
  | .useFullLine =>
      env.get? "GCPLOG_TARGET_USE_FULL_LINE" = some "true"
      ∨ env.get? "GCPLOG_TARGET_USE_FULL_LINE" = some "false"

/-- Settings with the default in place of their value for one of them. -/
def reset (settings : Settings) : Overridable → Settings
  | .logLevel =>
      { settings with general := { settings.general with logLevel := General.default.logLevel } }
  | .logFormat =>
      { settings with general := { settings.general with logFormat := General.default.logFormat } }
  | .useIncomingTimestamp =>
      { settings with target := { settings.target with useIncomingTimestamp := false } }
  | .useFullLine => { settings with target := { settings.target with useFullLine := false } }

/-- Two settings that are the same but for the given one. -/
def AgreeApart (setting : Overridable) (first second : Settings) : Prop :=
  setting.reset first = setting.reset second

/-- The setting has a value that it may have. -/
def IsAllowed (settings : Settings) : Overridable → Prop
  | .logLevel => settings.general.logLevel ∈ General.levels
  | .logFormat => settings.general.logFormat ∈ General.formats
  | .useIncomingTimestamp | .useFullLine => True

variable {setting : Overridable} {env : NameMap} {settings first second : Settings}

/-- An overridden setting makes no difference to what the environment leaves. -/
theorem override_reset (set : setting.IsSetBy env)
    : (setting.reset settings).override env = settings.override env := by
  cases setting with
  | logLevel =>
      obtain ⟨value, found⟩ := set
      simp only [override, reset, found, Option.getD_some]
  | logFormat =>
      obtain ⟨value, found⟩ := set
      simp only [override, reset, found, Option.getD_some]
  | useIncomingTimestamp =>
      obtain found | found := set <;> simp only [override, reset, found, overrideFlag]
  | useFullLine =>
      obtain found | found := set <;> simp only [override, reset, found, overrideFlag]

/-- Settings that agree but for an overridden one are the same after the environment. -/
theorem AgreeApart.override (agree : setting.AgreeApart first second)
    (set : setting.IsSetBy env)
    : first.override env = second.override env := by
  rw [← override_reset set, agree, override_reset set]

/-- Settings that agree but for one have the same fault, if that one is allowed in both or in
neither.
-/
theorem AgreeApart.fault? (agree : setting.AgreeApart first second)
    (same : setting.IsAllowed first ↔ setting.IsAllowed second)
    : first.fault? = second.fault? := by
  obtain ⟨⟨level, format⟩, ⟨incoming, full, labels, rules⟩⟩ := first
  obtain ⟨⟨level', format'⟩, ⟨incoming', full', labels', rules'⟩⟩ := second
  unfold AgreeApart reset at agree
  cases setting <;>
    simp only [Settings.mk.injEq, General.mk.injEq, Target.mk.injEq, true_and, and_true,
      IsAllowed] at agree same
  case logLevel | logFormat =>
    obtain ⟨rfl, rfl, rfl, rfl, rfl⟩ := agree
    simp only [Settings.fault?, List.contains_iff_mem, same, Bool.not_eq_true',
      ← Bool.not_eq_true]
  case useIncomingTimestamp | useFullLine =>
    obtain ⟨⟨rfl, rfl⟩, rfl, rfl, rfl⟩ := agree
    rfl

/-- Settings with a value that one of them may not have are at fault. -/
theorem exists_fault_of_not_isAllowed (refused : ¬setting.IsAllowed settings)
    : ∃ fault, settings.fault? = some fault := by
  rw [← Option.ne_none_iff_exists']
  intro valid
  obtain ⟨level, format, _⟩ := fault?_eq_none_iff.mp valid
  cases setting with
  | logLevel => exact refused level
  | logFormat => exact refused format
  | useIncomingTimestamp => exact refused trivial
  | useFullLine => exact refused trivial

end Overridable

/-- Two documents whose settings agree but for one that the environment overrides are loaded alike
if both or neither have a value that it may have. A document with another value is refused in every
environment, for the fault of its own settings.
-/
theorem load_eq_of_agreeApart {setting : Overridable} {env : NameMap} {one other : String}
    {first second : Settings} (set : setting.IsSetBy env) (parsed : parse one = .ok first)
    (parsedOther : parse other = .ok second) (agree : setting.AgreeApart first second)
    : ((setting.IsAllowed first ↔ setting.IsAllowed second) → load env one = load env other)
      ∧ (¬setting.IsAllowed first
        → ∃ fault,
            first.fault? = some fault
            ∧ ∀ any : NameMap, load any one = .error (.invalidValue fault)) := by
  constructor
  · intro same
    have faults : first.fault? = second.fault? := agree.fault? same
    have left : first.override env = second.override env := agree.override set
    rw [load_of_parse parsed, load_of_parse parsedOther]
    unfold validate
    rw [faults]
    cases second.fault? with
    | some fault => rfl
    | none =>
        change Settings.validate (first.override env) = Settings.validate (second.override env)
        rw [left]
  · intro refused
    obtain ⟨fault, faulty⟩ := Overridable.exists_fault_of_not_isAllowed refused
    refine ⟨fault, faulty, fun any => ?_⟩
    rw [load_of_parse parsed, validate_eq_error_iff.mpr ⟨fault, faulty, rfl⟩]
    rfl

/-- Under a variable for the level, an empty document and one with another level are loaded alike;
one with a level that does not exist is refused.
-/
theorem load_eq_of_agreeApart_debug
    : let env : NameMap := .ofList [("GCPLOG_GENERAL_LOG_LEVEL", "info")]
      load env "[general]\nlog_level = \"debug\"\n" = load env ""
      ∧ load env "[general]\nlog_level = \"loud\"\n" = .error (.invalidValue .logLevel) := by
  intro env
  let levelled : String → Settings := fun level =>
    { Settings.default with general := { General.default with logLevel := level } }
  have set : Overridable.IsSetBy env .logLevel := ⟨"info", by decide +kernel⟩
  have empty : parse "" = .ok .default := by decide +kernel
  have debug : parse "[general]\nlog_level = \"debug\"\n" = .ok (levelled "debug") := by
    decide +kernel
  have loud : parse "[general]\nlog_level = \"loud\"\n" = .ok (levelled "loud") := by
    decide +kernel
  constructor
  · refine (load_eq_of_agreeApart set debug empty rfl).1 (iff_of_true ?_ ?_)
    · exact show "debug" ∈ General.levels by decide
    · exact show "info" ∈ General.levels by decide
  · obtain ⟨fault, faulty, refused⟩ :=
      (load_eq_of_agreeApart set loud empty rfl).2 (show "loud" ∉ General.levels by decide)
    have named : (levelled "loud").fault? = some .logLevel := by decide +kernel
    obtain rfl : SettingFault.logLevel = fault := Option.some.inj (named.symm.trans faulty)
    exact refused env

/-- A level that does not exist is refused although the environment has another one for it. -/
theorem load_loud_ne_load_empty
    : let env : NameMap := .ofList [("GCPLOG_GENERAL_LOG_LEVEL", "info")]
      ∃ first second,
        parse "[general]\nlog_level = \"loud\"\n" = .ok first
        ∧ parse "" = .ok second
        ∧ Overridable.AgreeApart .logLevel first second
        ∧ Overridable.IsSetBy env .logLevel
        ∧ load env "[general]\nlog_level = \"loud\"\n" ≠ load env "" := by
  refine ⟨⟨⟨"loud", "json"⟩, .default⟩, .default, ?_, ?_, rfl, ⟨"info", ?_⟩, ?_⟩ <;>
    decide +kernel

end LogIntake.Settings
