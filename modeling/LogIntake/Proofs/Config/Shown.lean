import LogIntake.Command.Settings
import LogIntake.Proofs.Config.Loading
import LogIntake.Proofs.DataFormat.Rebuilding
import LogIntake.Proofs.Toml.PrintedDocument

/-! Settings that are shown, read back. The writer leaves what the reader makes the same settings
of: each text in quotes of its own kind, each table under its header, and every rule with all its
fields. A modulus that has been read fits a word, and every such number is written in full.
-/

namespace LogIntake

open Relabel

namespace Toml

/-- A table whose entries all stand on lines is arranged as it is. -/
theorem arranged_of_plain {entries : List (String × Toml)}
    (plain : ∀ entry ∈ entries, hasHeader entry.2 = false)
    : arranged (.table entries) = .table entries := by
  have noTables : arrangedTables entries = [] := by
    induction entries with
    | nil => rfl
    | cons entry entries ih =>
        obtain ⟨first, rest⟩ := List.forall_mem_cons.mp plain
        rw [arrangedTables, first]
        exact ih rest
  have all : (entries.filter fun entry => !hasHeader entry.2) = entries :=
    List.filter_eq_self.mpr fun entry member => by rw [plain entry member]; rfl
  rw [arranged, all, noTables, List.append_nil]

/-- A number that fits a word is decoded as it is. -/
theorem word_natCast {n : Nat} (word : n < Nat.pow 2 64)
    : dataFormat.word (.integer n) = .ok n := by
  have inRange : 0 ≤ (n : Int) ∧ (n : Int) < Nat.pow 2 64 :=
    ⟨Int.natCast_nonneg _, Int.ofNat_lt.mpr word⟩
  have number : dataFormat.word = asWord := rfl
  rw [number, asWord, if_pos inRange, Int.toNat_natCast]

/-- A number that is decoded fits a word. -/
theorem lt_of_word {value : Toml} {n : Nat} (decoded : dataFormat.word value = .ok n)
    : n < Nat.pow 2 64 := by
  have number : dataFormat.word = asWord := rfl
  rw [number] at decoded
  unfold asWord at decoded
  split at decoded
  case h_1 n =>
    split at decoded
    case isTrue inRange =>
      cases decoded
      exact (Int.toNat_lt inRange.1).mpr inRange.2
    case isFalse => cases decoded
  case h_2 => cases decoded

end Toml

-----------------------------------------------------------------------------------------
-- Rules
-----------------------------------------------------------------------------------------

namespace Relabel

/-- An action has the name that it is written with. -/
theorem Action.ofName?_name (action : Action) : Action.ofName? action.name = some action := by
  have table : ∀ action ∈ Action.all, Action.ofName? action.name = some action := by
    decide +kernel
  exact table action (by cases action <;> decide)

/-- The modulus of a rule fits a word of 64 bits. -/
def Rule.HasWordModulus (rule : Rule) : Prop :=
  rule.modulus < Nat.pow 2 64

/-- The modulus of every decoded rule fits a word: only one field stores it, which reads a word. -/
theorem Rule.hasWordModulus_of_decode {value : Toml} {rule : Rule}
    (decoded : Rule.decode Toml.dataFormat value = .ok rule)
    : rule.HasWordModulus := by
  have keeps
      : ∀ field ∈ Rule.fields Toml.dataFormat, DataFormat.Keeps Rule.HasWordModulus field := by
    intro field member
    simp only [Rule.fields, List.mem_cons, List.not_mem_nil, or_false] at member
    rcases member with rfl | rfl | rfl | rfl | rfl | rfl | rfl
    case inr.inr.inr.inl => exact DataFormat.keeps_put _ fun _ _ _ word _ => Toml.lt_of_word word
    all_goals exact DataFormat.keeps_put _ fun _ _ _ _ start => start
  exact DataFormat.decodeRecord_keeps keeps decoded (by decide : Rule.default.modulus < _)

/-- A rule is decoded from the table that it is written as. -/
theorem Rule.decode_toToml {rule : Rule} (word : rule.HasWordModulus)
    : Rule.decode Toml.dataFormat rule.toToml = .ok rule := by
  have names
      : Toml.dataFormat.decodeList Toml.dataFormat.text (.array (rule.sourceLabels.map .text))
        = .ok rule.sourceLabels :=
    DataFormat.decodeList_map Toml.dataFormat.text (fun _ _ => rfl) rfl
  have modulus : Toml.dataFormat.word (.integer rule.modulus) = .ok rule.modulus :=
    Toml.word_natCast word
  have action : decodeAction Toml.dataFormat (.text rule.action.name) = .ok rule.action := by
    refine bind_eq_ok_iff.mpr ⟨_, rfl, ?_⟩
    rw [Action.ofName?_name]
    rfl
  change Toml.dataFormat.storeMembers (Rule.fields Toml.dataFormat) [] Rule.default _ = _
  refine DataFormat.storeMembers_cons_eq_ok rfl rfl (bind_eq_ok_iff.mpr ⟨_, names, rfl⟩) ?_
  refine DataFormat.storeMembers_cons_eq_ok rfl rfl rfl ?_
  refine DataFormat.storeMembers_cons_eq_ok rfl rfl rfl ?_
  refine DataFormat.storeMembers_cons_eq_ok rfl rfl (bind_eq_ok_iff.mpr ⟨_, modulus, rfl⟩) ?_
  refine DataFormat.storeMembers_cons_eq_ok rfl rfl rfl ?_
  refine DataFormat.storeMembers_cons_eq_ok rfl rfl rfl ?_
  exact DataFormat.storeMembers_cons_eq_ok rfl rfl (bind_eq_ok_iff.mpr ⟨_, action, rfl⟩) rfl

end Relabel

-----------------------------------------------------------------------------------------
-- The pipeline
-----------------------------------------------------------------------------------------

namespace Target

/-- The entries of a rule in the document. -/
def ruleEntries (rule : Rule) : List (String × Toml) :=
  [("source_labels", .array (rule.sourceLabels.map Toml.text)),
   ("separator", .text rule.separator), ("regex", .text rule.regex),
   ("modulus", .integer rule.modulus), ("target_label", .text rule.targetLabel),
   ("replacement", .text rule.replacement), ("action", .text rule.action.name)]

/-- The moduli of all rules fit words of 64 bits. -/
def HasWordModuli (target : Target) : Prop :=
  ∀ rule ∈ target.rules, rule.HasWordModulus

/-- The moduli of every decoded target fit words: only one field stores its rules, which decodes
them.
-/
theorem hasWordModuli_of_decode {value : Toml} {target : Target}
    (decoded : decode Toml.dataFormat value = .ok target)
    : target.HasWordModuli := by
  have keeps : ∀ field ∈ fields Toml.dataFormat, DataFormat.Keeps HasWordModuli field := by
    intro field member
    simp only [fields, List.mem_cons, List.not_mem_nil, or_false] at member
    rcases member with rfl | rfl | rfl | rfl
    case inr.inr.inr =>
      exact DataFormat.keeps_put _ fun _ _ _ rules _ =>
        DataFormat.forall_mem_of_decodeList (fun _ _ => Rule.hasWordModulus_of_decode) rules
    all_goals exact DataFormat.keeps_put _ fun _ _ _ _ start => start
  exact DataFormat.decodeRecord_keeps keeps decoded nofun

theorem isPlain_ruleEntries {rule : Rule} (word : rule.HasWordModulus)
    : ∀ entry ∈ ruleEntries rule, Toml.IsPlain entry.2 := by
  have inRange : Toml.isInRange (rule.modulus : Int) = true := by
    have below : rule.modulus < 2 ^ 128 := word.trans (by decide)
    simp only [Toml.isInRange, Bool.and_eq_true, decide_eq_true_eq, Nat.pow_eq]
    omega
  intro entry member
  simp only [ruleEntries, List.mem_cons, List.not_mem_nil, or_false] at member
  rcases member with rfl | rfl | rfl | rfl | rfl | rfl | rfl
  · refine .array fun item member => ?_
    obtain ⟨name, _, rfl⟩ := List.mem_map.mp member
    exact .text name
  · exact .atom (.text _)
  · exact .atom (.text _)
  · exact .atom (.integer inRange)
  · exact .atom (.text _)
  · exact .atom (.text _)
  · exact .atom (.text _)

/-- All entries of a rule stand on lines: the names of its sources are no tables. -/
theorem hasHeader_ruleEntries (rule : Rule)
    : ∀ entry ∈ ruleEntries rule, Toml.hasHeader entry.2 = false := by
  intro entry member
  simp only [ruleEntries, List.mem_cons, List.not_mem_nil, or_false] at member
  rcases member with rfl | rfl | rfl | rfl | rfl | rfl | rfl
  case inl =>
    cases rule.sourceLabels with
    | nil => rfl
    | cons name names => rfl
  all_goals rfl

/-- What the target is written as, with the values before the tables. -/
def arrangedEntries (target : Target) : List (String × Toml) :=
  let labels := target.labels.toList.map fun entry => (entry.1, Toml.text entry.2)
  let rules := ("relabel_configs", Toml.array (target.rules.map Rule.toToml))
  [("use_incoming_timestamp", .boolean target.useIncomingTimestamp),
    ("use_full_line", .boolean target.useFullLine)]
  ++ if target.rules.isEmpty then [rules, ("labels", .table labels)]
    else [("labels", .table labels), rules]

theorem isTree_entries {target : Target} (words : target.HasWordModuli)
    : ∀ entry ∈ target.toToml, Toml.IsTree entry.2 := by
  have labels
      : Toml.IsTree
          (.table (target.labels.toList.map fun entry => (entry.1, Toml.text entry.2))) := by
    refine .table ?_ fun entry member => ?_
    · rw [List.map_map]
      exact List.pairwise_map.mpr (target.labels.map.ascending.imp String.ne_of_lt)
    · obtain ⟨label, _, rfl⟩ := List.mem_map.mp member
      exact .plain (.atom (.text _))
  have rules : Toml.IsTree (.array (target.rules.map Rule.toToml)) := by
    have tables : target.rules.map Rule.toToml = (target.rules.map ruleEntries).map .table := by
      rw [List.map_map]
      rfl
    by_cases none : target.rules = []
    · rw [none]
      exact .plain (.array nofun)
    · rw [tables]
      refine .rows (by simpa using none) fun entries member => ?_
      obtain ⟨rule, inRules, rfl⟩ := List.mem_map.mp member
      refine .table (by simp [ruleEntries]) fun entry inEntries => ?_
      exact .plain (isPlain_ruleEntries (words rule inRules) entry inEntries)
  intro entry member
  simp only [toToml, List.mem_cons, List.not_mem_nil, or_false] at member
  rcases member with rfl | rfl | rfl | rfl
  · exact .plain (.atom (.boolean _))
  · exact .plain (.atom (.boolean _))
  · exact labels
  · exact rules

theorem arranged_toToml (target : Target)
    : Toml.arranged (.table target.toToml) = .table target.arrangedEntries := by
  have labels (entries : List (String × String))
      : Toml.arranged (.table (entries.map fun entry => (entry.1, Toml.text entry.2)))
        = .table (entries.map fun entry => (entry.1, Toml.text entry.2)) := by
    refine Toml.arranged_of_plain fun entry member => ?_
    obtain ⟨label, _, rfl⟩ := List.mem_map.mp member
    rfl
  have rules (rules : List Rule)
      : Toml.arrangedItems (rules.map Rule.toToml) = rules.map Rule.toToml := by
    induction rules with
    | nil => rfl
    | cons rule rules ih =>
        have own : Toml.arranged rule.toToml = rule.toToml :=
          Toml.arranged_of_plain (hasHeader_ruleEntries rule)
        rw [List.map_cons, Toml.arrangedItems, own, ih]
  have header
      : Toml.hasHeader (.array (target.rules.map Rule.toToml)) = !target.rules.isEmpty := by
    have tables : (target.rules.map Rule.toToml).all Toml.isTable = true := by
      simp [Rule.toToml, Toml.isTable]
    simp [Toml.hasHeader, tables]
  have flag (b : Bool) : Toml.hasHeader (.boolean b) = false := rfl
  have table (entries : List (String × Toml)) : Toml.hasHeader (.table entries) = true := rfl
  have list (items : List Toml)
      : Toml.arranged (.array items) = .array (Toml.arrangedItems items) := by
    rw [Toml.arranged]
  rw [Toml.arranged, toToml, arrangedEntries]
  cases none : target.rules.isEmpty <;>
    simp [Toml.arrangedTables, header, none, flag, table, list, labels, rules]

theorem decode_arranged {target : Target} (words : target.HasWordModuli)
    : decode Toml.dataFormat (.table target.arrangedEntries) = .ok target := by
  have flag (b : Bool) : Toml.dataFormat.flag (.boolean b) = .ok b := rfl
  have labels
      : decodeLabels Toml.dataFormat
          (.table (target.labels.toList.map fun entry => (entry.1, Toml.text entry.2)))
        = .ok target.labels := by
    refine bind_eq_ok_iff.mpr
      ⟨target.labels.map, DataFormat.decodeTexts_entries .text (fun _ => rfl) rfl, ?_⟩
    rw [RecordLabels.ofMap_map]
    rfl
  have rules
      : Toml.dataFormat.decodeList (Rule.decode Toml.dataFormat)
          (.array (target.rules.map Rule.toToml))
        = .ok target.rules :=
    DataFormat.decodeList_map (Rule.decode Toml.dataFormat)
      (fun rule member => Rule.decode_toToml (words rule member)) rfl
  change Toml.dataFormat.storeMembers (fields Toml.dataFormat) [] default _ = _
  unfold arrangedEntries
  refine DataFormat.storeMembers_cons_eq_ok rfl rfl rfl ?_
  refine DataFormat.storeMembers_cons_eq_ok rfl rfl rfl ?_
  cases target.rules.isEmpty with
  | true =>
      refine DataFormat.storeMembers_cons_eq_ok rfl rfl (bind_eq_ok_iff.mpr ⟨_, rules, rfl⟩) ?_
      exact DataFormat.storeMembers_cons_eq_ok rfl rfl (bind_eq_ok_iff.mpr ⟨_, labels, rfl⟩) rfl
  | false =>
      refine DataFormat.storeMembers_cons_eq_ok rfl rfl (bind_eq_ok_iff.mpr ⟨_, labels, rfl⟩) ?_
      exact DataFormat.storeMembers_cons_eq_ok rfl rfl (bind_eq_ok_iff.mpr ⟨_, rules, rfl⟩) rfl

end Target

-----------------------------------------------------------------------------------------
-- The settings
-----------------------------------------------------------------------------------------

theorem General.decode_toToml (general : General)
    : General.decode Toml.dataFormat (.table general.toToml) = .ok general := by
  change Toml.dataFormat.storeMembers (fields Toml.dataFormat) [] default _ = _
  refine DataFormat.storeMembers_cons_eq_ok rfl rfl rfl ?_
  exact DataFormat.storeMembers_cons_eq_ok rfl rfl rfl rfl

namespace Settings

theorem arranged_toToml (settings : Settings)
    : Toml.arranged (.table settings.toToml)
      = .table
          [("general", .table settings.general.toToml),
            ("target", .table settings.target.arrangedEntries)] := by
  have general : Toml.arranged (.table settings.general.toToml)
      = .table settings.general.toToml :=
    Toml.arranged_of_plain (by simp [General.toToml, Toml.hasHeader])
  have table (entries : List (String × Toml)) : Toml.hasHeader (.table entries) = true := rfl
  rw [Toml.arranged, toToml]
  simp [Toml.arrangedTables, table, general, Target.arranged_toToml]

/-- Settings are read back from their document. -/
theorem parse_documentText {settings : Settings} (words : settings.target.HasWordModuli)
    : parse (Toml.documentText settings.toToml) = .ok settings := by
  have trees : ∀ entry ∈ settings.toToml, Toml.IsTree entry.2 := by
    intro entry member
    simp only [toToml, List.mem_cons, List.not_mem_nil, or_false] at member
    rcases member with rfl | rfl
    · refine .table (by simp [General.toToml]) fun entry member => ?_
      simp only [General.toToml, List.mem_cons, List.not_mem_nil, or_false] at member
      rcases member with rfl | rfl <;> exact .plain (.atom (.text _))
    · exact .table (by simp [Target.toToml]) (Target.isTree_entries words)
  have document := Toml.parse_documentText (by simp [toToml]) trees
  rw [arranged_toToml] at document
  unfold parse
  rw [mapError_eq_ok_iff]
  refine bind_eq_ok_iff.mpr ⟨_, document, ?_⟩
  change Toml.dataFormat.storeMembers (fields Toml.dataFormat) [] default _ = _
  have general := General.decode_toToml settings.general
  have target := Target.decode_arranged words
  refine DataFormat.storeMembers_cons_eq_ok rfl rfl (bind_eq_ok_iff.mpr ⟨_, general, rfl⟩) ?_
  exact DataFormat.storeMembers_cons_eq_ok rfl rfl (bind_eq_ok_iff.mpr ⟨_, target, rfl⟩) rfl

end Settings

/-- The target is read back from its own document. -/
theorem Target.decode_documentText {target : Target} (words : target.HasWordModuli)
    : (Toml.parse (Toml.documentText target.toToml) >>= decode Toml.dataFormat) = .ok target := by
  have document := Toml.parse_documentText (by simp [toToml]) (isTree_entries words)
  rw [arranged_toToml] at document
  exact bind_eq_ok_iff.mpr ⟨_, document, decode_arranged words⟩

namespace Settings

/-- The moduli of all settings that are parsed fit words. -/
theorem hasWordModuli_of_parse {document : String} {settings : Settings}
    (parsed : parse document = .ok settings)
    : settings.target.HasWordModuli := by
  obtain ⟨value, _, decoded⟩ := bind_eq_ok_iff.mp (mapError_eq_ok_iff.mp parsed)
  have keeps
      : ∀ field ∈ fields Toml.dataFormat,
          DataFormat.Keeps (fun settings => settings.target.HasWordModuli) field := by
    intro field member
    simp only [fields, List.mem_cons, List.not_mem_nil, or_false] at member
    rcases member with rfl | rfl
    · exact DataFormat.keeps_put _ fun _ _ _ _ start => start
    · exact DataFormat.keeps_put _ fun _ _ _ target _ => Target.hasWordModuli_of_decode target
  exact DataFormat.decodeRecord_keeps keeps decoded nofun

/-- The moduli of all settings that are loaded fit words, since the environment changes no rule. -/
theorem hasWordModuli_of_load {env : NameMap} {document : String} {settings : Settings}
    (loaded : load env document = .ok settings)
    : settings.target.HasWordModuli := by
  obtain ⟨own, parsed, _, rfl, _⟩ := load_eq_ok_iff.mp loaded
  have words := hasWordModuli_of_parse parsed
  exact words

end Settings

namespace SettingsView

/-- Whatever settings are loaded from a document and an environment, the document that shows all of
them is read back as these settings, and the one that shows their target as the target.
-/
theorem document_reads_back (path : String) {env : NameMap} {document : String}
    {settings : Settings} (loaded : Settings.load env document = .ok settings)
    : Settings.parse (SettingsView.mk path none settings).document = .ok settings
      ∧ (Toml.parse (SettingsView.mk path (some .target) settings).document
          >>= Target.decode Toml.dataFormat)
        = .ok settings.target := by
  have words := Settings.hasWordModuli_of_load loaded
  exact ⟨Settings.parse_documentText words, Target.decode_documentText words⟩

/-- Quotes, line breaks, an empty label and the greatest modulus are read back, with a level of the
environment.
-/
theorem document_reads_back_quotes
    : let document :=
        "[target.labels]\nenv = ''\n[[target.relabel_configs]]\nmodulus = 18446744073709551615\n"
          ++ "target_label = 't'\nseparator = \"'\\n\\\"\\\"\\\"\"\nregex = '\\.+'"
      let rule : Rule :=
        { Rule.default with
          separator := "'\n\"\"\"", regex := "\\.+", modulus := 18446744073709551615
          targetLabel := "t" }
      let settings : Settings :=
        ⟨⟨"debug", "json"⟩, ⟨false, false, RecordLabels.empty.insertIfNamed "env" "", [rule]⟩⟩
      let env := NameMap.ofList [("GCPLOG_GENERAL_LOG_LEVEL", "debug")]
      Settings.load env document = .ok settings
      ∧ Settings.parse (SettingsView.mk "s.toml" none settings).document = .ok settings := by
  intro document rule settings env
  have loaded : Settings.load env document = .ok settings := by decide +kernel
  exact ⟨loaded, (document_reads_back "s.toml" loaded).1⟩

end SettingsView

end LogIntake
