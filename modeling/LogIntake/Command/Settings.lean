import LogIntake.Command.Error
import LogIntake.Terminal

/-! Loading settings, and the reports on them: whether they are valid, and what they are.
-/

namespace LogIntake

/-- The report on whether settings are valid. -/
structure SettingsCheck where
  path : String
  ruleCount : Nat
  error : Option String
  deriving Repr, DecidableEq, Inhabited

/-- A part of the settings that can be shown by itself. -/
inductive SettingsPart where
  | general
  | target
  deriving Repr, DecidableEq, Inhabited

/-- The report on what settings are: all of them, or one part. -/
structure SettingsView where
  path : String
  part : Option SettingsPart
  settings : Settings
  deriving Repr, DecidableEq, Inhabited

namespace Settings

def loadFile (files : Files) (env : NameMap) (path : String) : Except LoadError Settings :=
  match files.readText path with
  | .ok document => (load env document).mapError .settings
  | .error .notFound => .error (.settings (.missingFile path))
  | .error e => .error (.file e)

end Settings

namespace SettingsCheck

def ofFile (files : Files) (env : NameMap) (path : String) : SettingsCheck :=
  match Settings.loadFile files env path with
  | .ok settings => ⟨path, settings.target.rules.length, none⟩
  | .error e => ⟨path, 0, some e.message⟩

def isValid (check : SettingsCheck) : Bool :=
  check.error.isNone

open Terminal in
def render (emphasis : Bool) (check : SettingsCheck) : String :=
  let lines :=
    match check.error with
    | none =>
        "  Result: " ++ paint emphasis (boldColoured .green) "VALID" ++ "\n"
          ++ s!"  Relabel rules: {check.ruleCount}\n"
    | some error =>
        "  Result: " ++ paint emphasis (boldColoured .red) "INVALID" ++ "\n"
          ++ "  Error: " ++ paint emphasis (coloured .red) error ++ "\n"
  "Config Validation: " ++ paint emphasis bold check.path ++ "\n" ++ lines

def toJson (check : SettingsCheck) : Json :=
  .obj
    [("source", .str check.path), ("valid", .bool check.isValid),
     ("relabel_rules", .num (.natural check.ruleCount)),
     ("errors", .ofNames check.error.toList)]

end SettingsCheck

namespace SettingsPart

def name : SettingsPart → String
  | .general => "general"
  | .target => "target"

def ofName? (name : String) : Option SettingsPart :=
  [SettingsPart.general, SettingsPart.target].find? fun part => part.name = name

end SettingsPart

namespace SettingsView

/-- What is shown, as the entries of a TOML document. -/
def entries (view : SettingsView) : List (String × Toml) :=
  match view.part with
  | none => view.settings.toToml
  | some .general => view.settings.general.toToml
  | some .target => view.settings.target.toToml

/-- What is shown, as a TOML document. -/
def document (view : SettingsView) : String :=
  Toml.documentText view.entries

open Terminal in
def render (emphasis : Bool) (view : SettingsView) : String :=
  let title :=
    match view.part with
    | none => s!"Configuration (source: {paint emphasis bold view.path})"
    | some part =>
        let name := paint emphasis bold ("[" ++ part.name ++ "]")
        s!"Configuration {name} (source: {view.path})"
  title ++ "\n\n" ++ view.document

/-- The JSON form, which names the file and the part only. -/
def toJson (view : SettingsView) : Json :=
  .obj
    (("source", .str view.path)
      :: (view.part.map fun part => ("section", Json.str part.name)).toList)

end SettingsView

end LogIntake
