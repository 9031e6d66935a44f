import LogIntake.Config.Target
import LogIntake.Toml.Decode
import LogIntake.Toml.Parser
import LogIntake.Toml.Printer

/-! The settings of the program: how it keeps its own log, and the pipeline. They are read from
a TOML document; variables of the environment override some of them.
-/

namespace LogIntake

open Relabel

/-- How the program keeps its own log. -/
structure General where
  logLevel : String
  logFormat : String
  deriving Repr, DecidableEq, Inhabited

/-- The settings of the program. -/
structure Settings where
  general : General
  target : Target
  deriving Repr, DecidableEq, Inhabited

/-- A setting with a value that it may not have. -/
inductive SettingFault where
  | logLevel
  | logFormat
  | rules (cause : RuleError)
  deriving Repr, DecidableEq, Inhabited

/-- Why settings cannot be had. -/
inductive SettingsError where
  | missingFile (path : String)
  | unparsable (cause : Toml.Fault)
  | invalidValue (fault : SettingFault)
  deriving Repr, DecidableEq, Inhabited

namespace General

def levels : List String :=
  ["trace", "debug", "info", "warn", "error"]

def formats : List String :=
  ["json", "pretty"]

def default : General :=
  ⟨"info", "json"⟩

def fields {ν ε : Type} (format : DataFormat ν ε) : List (Field ν ε General) :=
  [⟨"log_level", fun general value => do
      return { general with logLevel := ← format.text value }⟩,
   ⟨"log_format", fun general value => do
      return { general with logFormat := ← format.text value }⟩]

def decode {ν ε : Type} (format : DataFormat ν ε) : ν → Except ε General :=
  format.decodeRecord "struct GeneralConfig" (fields format) default

def toJson (general : General) : Json :=
  .obj [("log_level", .str general.logLevel), ("log_format", .str general.logFormat)]

def toToml (general : General) : List (String × Toml) :=
  [("log_level", .text general.logLevel), ("log_format", .text general.logFormat)]

end General

namespace Relabel.Rule

def toToml (rule : Rule) : Toml :=
  .table
    [("source_labels", .array (rule.sourceLabels.map Toml.text)),
     ("separator", .text rule.separator), ("regex", .text rule.regex),
     ("modulus", .integer rule.modulus), ("target_label", .text rule.targetLabel),
     ("replacement", .text rule.replacement), ("action", .text rule.action.name)]

end Relabel.Rule

namespace Target

def toToml (target : Target) : List (String × Toml) :=
  [("use_incoming_timestamp", .boolean target.useIncomingTimestamp),
   ("use_full_line", .boolean target.useFullLine),
   ("labels", .table (target.labels.toList.map fun entry => (entry.1, .text entry.2))),
   ("relabel_configs", .array (target.rules.map Rule.toToml))]

end Target

namespace SettingFault

def field : SettingFault → String
  | .logLevel => "general.log_level"
  | .logFormat => "general.log_format"
  | .rules _ => "target.relabel_configs"

def reason : SettingFault → String
  | .logLevel => "must be one of: " ++ ", ".intercalate General.levels
  | .logFormat => "must be one of: " ++ ", ".intercalate General.formats
  | .rules cause => cause.message

end SettingFault

def SettingsError.message : SettingsError → String
  | .missingFile path => "config file not found: " ++ path
  | .unparsable cause => "failed to parse config: " ++ cause.message
  | .invalidValue fault => s!"invalid config value for '{fault.field}': {fault.reason}"

namespace Settings

def default : Settings :=
  ⟨.default, .default⟩

def fields {ν ε : Type} (format : DataFormat ν ε) : List (Field ν ε Settings) :=
  [⟨"general", fun settings value => do
      return { settings with general := ← General.decode format value }⟩,
   ⟨"target", fun settings value => do
      return { settings with target := ← Target.decode format value }⟩]

def parse (document : String) : Except SettingsError Settings :=
  let result := do
    let value ← Toml.parse document
    Toml.dataFormat.decodeRecord "struct GcpLogConfig" (fields Toml.dataFormat) default value
  result.mapError .unparsable

/-- The first setting with a value that it may not have. -/
def fault? (settings : Settings) : Option SettingFault :=
  if !General.levels.contains settings.general.logLevel then some .logLevel
  else if !General.formats.contains settings.general.logFormat then some .logFormat
  else
    match Rules.compile settings.target.rules with
    | .ok _ => none
    | .error cause => some (.rules cause)

/-- The settings themselves, if all values are allowed. -/
def validate (settings : Settings) : Except SettingsError Settings :=
  match settings.fault? with
  | some fault => .error (.invalidValue fault)
  | none => .ok settings

/-- A flag as an environment variable spells it; anything else leaves the old value. -/
def overrideFlag (value : Option String) (old : Bool) : Bool :=
  match value with
  | some "true" => true
  | some "false" => false
  | _ => old

/-- The variables of the environment that override settings. -/
def variableNames : List String :=
  ["GCPLOG_GENERAL_LOG_LEVEL", "GCPLOG_GENERAL_LOG_FORMAT",
   "GCPLOG_TARGET_USE_INCOMING_TIMESTAMP", "GCPLOG_TARGET_USE_FULL_LINE"]

/-- The settings after the variables of an environment. -/
def override (env : NameMap) (settings : Settings) : Settings :=
  let general := settings.general
  let target := settings.target
  ⟨⟨(env.get? "GCPLOG_GENERAL_LOG_LEVEL").getD general.logLevel,
    (env.get? "GCPLOG_GENERAL_LOG_FORMAT").getD general.logFormat⟩,
   { target with
      useIncomingTimestamp :=
        overrideFlag (env.get? "GCPLOG_TARGET_USE_INCOMING_TIMESTAMP")
          target.useIncomingTimestamp,
      useFullLine :=
        overrideFlag (env.get? "GCPLOG_TARGET_USE_FULL_LINE") target.useFullLine }⟩

/-- The settings that a document and an environment describe. The document has to be valid by
itself, and so do the settings after the environment.
-/
def load (env : NameMap) (document : String) : Except SettingsError Settings := do
  let settings ← (← parse document).validate
  (settings.override env).validate

/-- The settings that an environment describes without a document. -/
def loadDefault (env : NameMap) : Except SettingsError Settings :=
  (default.override env).validate

def toJson (settings : Settings) : Json :=
  .obj [("general", settings.general.toJson), ("target", settings.target.toJson)]

def toToml (settings : Settings) : List (String × Toml) :=
  [("general", .table settings.general.toToml), ("target", .table settings.target.toToml)]

end Settings

end LogIntake
