import LogIntake.Command.Run
import LogIntake.Proofs.Formatter.Stages
import LogIntake.Proofs.Label.NameGrammar
import LogIntake.Proofs.Label.Publication
import LogIntake.Proofs.Relabel.Composition

/-! Where the labels of a record come from. The command line adds labels to those of the settings
and rules to theirs; a record shows under each name the label of the command line, or else the
configured one, or else the one that all rules together leave. A label of the command line with an
unfit name is refused before anything is formatted.
-/

namespace LogIntake

open Label Relabel

/-- A formatter that a target describes relabels with the compiled rules of the target and has its
labels.
-/
theorem Target.formatter_eq_ok_iff {target : Target} {formatter : Formatter}
    : target.formatter = .ok formatter
      ↔ ∃ rules,
          Rules.compile target.rules = .ok rules
          ∧ formatter = target.formatterWith rules.apply Label.sanitize := by
  unfold Target.formatter
  rw [bind_eq_ok_iff]
  constructor
  · rintro ⟨rules, compiled, returned⟩
    exact ⟨rules, compiled, (Except.ok.inj returned).symm⟩
  · rintro ⟨rules, compiled, rfl⟩
    exact ⟨rules, compiled, rfl⟩

namespace FormatArguments

/-- The rules of the file that the arguments name, which are none if they name no file. -/
def fileRules (arguments : FormatArguments) (files : Files) : Except RuleFileError (List Rule) :=
  match arguments.ruleFile with
  | some path => loadRules files path
  | none => .ok []

-----------------------------------------------------------------------------------------
-- Labels of the command line
-----------------------------------------------------------------------------------------

/-- The first label is put into the labels of the record, and the others are added to the result. -/
theorem addLabels_cons (labels : RecordLabels) (first : String × String)
    (rest : List (String × String))
    : addLabels labels (first :: rest)
      = ((labels.insert first.1 first.2).mapError (.label first.1)
          >>= fun labels => addLabels labels rest) :=
  List.foldlM_cons

/-- Labels are added exactly if all their names are fit for a record, and then one after the other,
by induction on the added labels.
-/
theorem addLabels_eq_ok_iff {labels result : RecordLabels} {added : List (String × String)}
    : addLabels labels added = .ok result
      ↔ (∀ label ∈ added, isRecordName label.1 = true)
        ∧ result
          = added.foldl (fun labels label => labels.insertIfNamed label.1 label.2) labels := by
  induction added generalizing labels with
  | nil =>
      have unchanged : addLabels labels [] = .ok labels := rfl
      rw [unchanged, Except.ok.injEq, List.foldl_nil]
      exact ⟨fun same => ⟨List.forall_mem_nil _, same.symm⟩, fun both => both.2.symm⟩
  | cons first rest ih =>
      rw [addLabels_cons, bind_eq_ok_iff, List.forall_mem_cons, List.foldl_cons]
      simp only [mapError_eq_ok_iff, RecordLabels.insert_eq_ok_iff, ih]
      constructor
      · rintro ⟨_, ⟨fit, rfl⟩, others, rfl⟩
        exact ⟨⟨fit, others⟩, rfl⟩
      · rintro ⟨⟨fit, others⟩, rfl⟩
        exact ⟨_, ⟨fit, rfl⟩, others, rfl⟩

/-- An added label wins over the one that was there before, and over those of its name that were
added earlier.
-/
theorem get?_addLabels {labels result : RecordLabels} {added : List (String × String)}
    (accepted : addLabels labels added = .ok result) (name : String)
    : result.get? name = (added.reverse.lookup name).or (labels.get? name) := by
  obtain ⟨fit, rfl⟩ := addLabels_eq_ok_iff.mp accepted
  by_cases named : isRecordName name = true
  · exact RecordLabels.get?_foldl_insertIfNamed added labels name named
  · have absent : added.reverse.lookup name = none := by
      apply List.lookup_eq_none_iff.mpr
      intro label member
      apply bne_iff_ne.mpr
      rintro rfl
      exact named (fit label (List.mem_reverse.mp member))
    rw [absent, RecordLabels.get?_of_unfit named, RecordLabels.get?_of_unfit named]
    rfl

/-- If a name is unfit for a record, the first such name is the error, by induction on the added
labels.
-/
theorem addLabels_eq_error (labels : RecordLabels) {added : List (String × String)}
    (unfit : ∃ label ∈ added, ¬ isRecordName label.1 = true)
    : ∃ label ∈ added, ∃ cause,
        checkRecordName label.1 = .error cause
        ∧ addLabels labels added = .error (.label label.1 cause) := by
  induction added generalizing labels with
  | nil => simp at unfit
  | cons first rest ih =>
      cases inserted : labels.insert first.1 first.2 with
      | error cause =>
          have refused := RecordLabels.insert_eq_error_iff.mp inserted
          exact ⟨first, List.mem_cons_self, cause, refused, by rw [addLabels_cons, inserted]; rfl⟩
      | ok labels =>
          have fit := (RecordLabels.insert_eq_ok_iff.mp inserted).1
          have later : ∃ label ∈ rest, ¬ isRecordName label.1 = true := by
            obtain ⟨label, member, bad⟩ := unfit
            rcases List.mem_cons.mp member with rfl | member
            · exact absurd fit bad
            · exact ⟨label, member, bad⟩
          obtain ⟨label, member, cause, refused, fails⟩ := ih labels later
          refine ⟨label, List.mem_cons_of_mem _ member, cause, refused, ?_⟩
          rw [addLabels_cons, inserted]
          exact fails

-----------------------------------------------------------------------------------------
-- The extended pipeline
-----------------------------------------------------------------------------------------

/-- Extending adds the labels first, and reads the rules of the file after that. -/
theorem extend_eq (arguments : FormatArguments) (files : Files) (target : Target)
    : arguments.extend files target
      = do
          let labels ← addLabels target.labels arguments.labels
          let added ← (arguments.fileRules files).mapError .ruleFile
          return ⟨target.useIncomingTimestamp || arguments.useIncomingTimestamp,
            target.useFullLine || arguments.useFullLine, labels, target.rules ++ added⟩ := by
  unfold extend fileRules
  cases arguments.ruleFile <;> rfl

/-- The pipeline is extended exactly if the labels are added and the rules of the file are read. -/
theorem extend_eq_ok_iff {arguments : FormatArguments} {files : Files} {target extended : Target}
    : arguments.extend files target = .ok extended
      ↔ ∃ labels added,
          addLabels target.labels arguments.labels = .ok labels
          ∧ arguments.fileRules files = .ok added
          ∧ extended
            = {
                useIncomingTimestamp :=
                  target.useIncomingTimestamp || arguments.useIncomingTimestamp
                useFullLine := target.useFullLine || arguments.useFullLine
                labels
                rules := target.rules ++ added
              } := by
  simp only [extend_eq, bind_eq_ok_iff, mapError_eq_ok_iff]
  constructor
  · rintro ⟨labels, addition, added, reading, returned⟩
    exact ⟨labels, added, addition, reading, (Except.ok.inj returned).symm⟩
  · rintro ⟨labels, added, addition, reading, rfl⟩
    exact ⟨labels, addition, added, reading, rfl⟩

/-- Every record of an extended pipeline has, under each name, the last label of the command line
with that name, or else the configured one, or else the one that the configured rules and then those
of the file leave of the assembled labels, if its name may leave the pipeline. If a label of the
command line has a name that may not, there is no extended pipeline, and the error names such a
label. Witness: publication lays the static labels over the rest, and these are the configured ones
under those of the command line.
-/
theorem record_label_precedence (arguments : FormatArguments) (files : Files) (target : Target)
    : (∀ extended formatter,
        arguments.extend files target = .ok extended
        → extended.formatter = .ok formatter
        → ∃ added before after,
            arguments.fileRules files = .ok added
            ∧ Rules.compile target.rules = .ok before
            ∧ Rules.compile added = .ok after
            ∧ ∀ now record,
                (formatter.Emits now record
                  → ∃ assembled, formatter.EmitsFrom now record assembled)
                ∧ ∀ assembled,
                    formatter.EmitsFrom now record assembled
                    → ∃ labels,
                        (before.apply assembled).bind after.apply = some labels
                        ∧ ∀ name,
                            record.labels.get? name
                            = match arguments.labels.reverse.lookup name,
                                target.labels.get? name with
                              | some given, _ => some given
                              | none, some configured => some configured
                              | none, none =>
                                  if IsLabelName name ∧ ¬ IsReserved name then labels.get? name
                                  else none)
      ∧ ((∃ label ∈ arguments.labels, ¬ (IsLabelName label.1 ∧ ¬ IsReserved label.1))
        → ∃ label ∈ arguments.labels, ∃ cause,
            checkRecordName label.1 = .error cause
            ∧ arguments.extend files target = .error (.label label.1 cause)) := by
  constructor
  · intro extended formatter extension configured
    obtain ⟨static, added, addition, reading, rfl⟩ := extend_eq_ok_iff.mp extension
    obtain ⟨rules, compilation, rfl⟩ := Target.formatter_eq_ok_iff.mp configured
    obtain ⟨before, after, compiledBefore, compiledAfter, rfl⟩ :=
      Rules.compile_append_eq_ok_iff.mp compilation
    refine ⟨added, before, after, reading, compiledBefore, compiledAfter, ?_⟩
    intro now record
    refine ⟨Formatter.Emits.assembled, ?_⟩
    intro assembled emitted
    obtain ⟨labels, relabelled, published⟩ := emitted.published
    refine ⟨labels, (Rules.apply_append before after assembled).symm.trans relabelled, ?_⟩
    intro name
    have layers : record.labels.get? name
        = ((arguments.labels.reverse.lookup name).or (target.labels.get? name)).or
            (if isRecordName name then labels.get? name else none) := by
      rw [published, LabelSet.get?_publish]
      exact congrArg (Option.or · _) (get?_addLabels addition name)
    rw [layers]
    simp only [isRecordName_iff]
    cases arguments.labels.reverse.lookup name with
    | some value => rfl
    | none => cases target.labels.get? name <;> rfl
  · rintro ⟨label, member, refused⟩
    have unfit : ∃ label ∈ arguments.labels, ¬ isRecordName label.1 = true :=
      ⟨label, member, fun fit => refused (isRecordName_iff.mp fit)⟩
    obtain ⟨first, listed, cause, check, fails⟩ := addLabels_eq_error target.labels unfit
    refine ⟨first, listed, cause, check, ?_⟩
    rw [extend_eq, fails]
    rfl

/-- Of three layers, the command line gives the job, the settings give the zone, and a rule of the
file gives the level; a reserved name on the command line is refused.
-/
theorem record_label_precedence_layers
    : let copy : String → Rule :=
        fun name =>
          { Rule.default with sourceLabels := ["__gcp_severity"], targetLabel := name }
      let target : Target :=
        {
          Target.default with
          labels := (RecordLabels.empty.insertIfNamed "job" "c").insertIfNamed "zone" "z"
          rules := [copy "job", copy "zone"]
        }
      let files : Files :=
        fun _ =>
          .ok (.bytes (Text.Utf8.encode
            "- source_labels: [__gcp_severity]\n  target_label: level\n"))
      let arguments : FormatArguments :=
        ⟨none, false, some "rules.yaml", [("job", "a"), ("job", "b")], false, false⟩
      let reserved := { arguments with labels := [("job", "a"), ("__job", "b")] }
      (∃ extended formatter record labels,
        arguments.extend files target = .ok extended
        ∧ extended.formatter = .ok formatter
        ∧ formatter.format zeroInstant (Text.Utf8.encode "\x7b\"severity\":\"E\"\x7d")
          = .ok (some record)
        ∧ record.labels.get? "job" = some "b"
        ∧ record.labels.get? "zone" = some "z"
        ∧ record.labels.get? "level" = LabelSet.get? labels "level"
        ∧ labels.get? "level" = some "E")
      ∧ ∃ label ∈ reserved.labels, ∃ cause,
          reserved.extend files target = .error (.label label.1 cause) := by
  intro copy target files arguments reserved
  constructor
  · have formats
        : ((arguments.extend files target).toOption.any fun extended =>
            extended.formatter.toOption.any fun formatter =>
              (formatter.format zeroInstant
                  (Text.Utf8.encode "\x7b\"severity\":\"E\"\x7d")).toOption.any fun outcome =>
                outcome.any fun record => record.labels.get? "level" = some "E")
          = true := by
      decide +kernel
    obtain ⟨extended, extension, formats⟩ := any_toOption_iff.mp formats
    obtain ⟨formatter, configured, formats⟩ := any_toOption_iff.mp formats
    obtain ⟨outcome, formatted, formats⟩ := any_toOption_iff.mp formats
    obtain ⟨record, rfl, level⟩ := (Option.any_eq_true _ _).mp formats
    obtain ⟨_, _, _, _, _, _, records⟩ :=
      (record_label_precedence arguments files target).1 extended formatter extension configured
    obtain ⟨exists_assembled, layered⟩ := records zeroInstant record
    obtain ⟨assembled, emitted⟩ := exists_assembled (.plain formatted)
    obtain ⟨labels, _, layers⟩ := layered assembled emitted
    exact ⟨extended, formatter, record, labels, extension, configured, formatted, layers "job",
      layers "zone", layers "level", (layers "level").symm.trans (of_decide_eq_true level)⟩
  · have unfit : ∃ label ∈ reserved.labels, ¬ (IsLabelName label.1 ∧ ¬ IsReserved label.1) := by
      decide
    obtain ⟨label, member, cause, _, fails⟩ :=
      (record_label_precedence reserved files target).2 unfit
    exact ⟨label, member, cause, fails⟩

end FormatArguments

end LogIntake
