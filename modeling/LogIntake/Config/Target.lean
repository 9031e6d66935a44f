import LogIntake.Formatter
import LogIntake.Relabel.Apply

/-! The configuration of the pipeline: its policies, its static labels and its rules.
-/

namespace LogIntake

open Relabel

/-- The configuration of the pipeline. -/
structure Target where
  useIncomingTimestamp : Bool
  useFullLine : Bool
  labels : RecordLabels
  rules : List Rule
  deriving Repr, DecidableEq, Inhabited

namespace Target

def default : Target :=
  ⟨false, false, .empty, []⟩

variable {ν ε : Type}

/-- Decodes labels whose names have to be fit for a record. -/
def decodeLabels (format : DataFormat ν ε) (value : ν) : Except ε RecordLabels := do
  let map ← format.decodeTexts value
  (RecordLabels.ofMap map).mapError fun e => format.rejected e.message

/-- The fields of the configuration, in the order of the list form. -/
def fields (format : DataFormat ν ε) : List (Field ν ε Target) :=
  [⟨"use_incoming_timestamp", fun target value => do
      return { target with useIncomingTimestamp := ← format.flag value }⟩,
   ⟨"use_full_line", fun target value => do
      return { target with useFullLine := ← format.flag value }⟩,
   ⟨"labels", fun target value => do
      return { target with labels := ← decodeLabels format value }⟩,
   ⟨"relabel_configs", fun target value => do
      return { target with rules := ← format.decodeList (Rule.decode format) value }⟩]

def decode (format : DataFormat ν ε) : ν → Except ε Target :=
  format.decodeRecord "struct TargetConfig" (fields format) default

def toJson (target : Target) : Json :=
  .obj
    [("use_incoming_timestamp", .bool target.useIncomingTimestamp),
     ("use_full_line", .bool target.useFullLine), ("labels", target.labels.toJson),
     ("relabel_configs", .arr (target.rules.map Rule.toJson))]

/-- The formatter with the given relabelling in place of the configured rules. -/
def formatterWith (target : Target) (relabel : LabelSet → Option LabelSet)
    (sanitize : String → String)
    : Formatter :=
  ⟨target.labels, relabel, target.useIncomingTimestamp, target.useFullLine, sanitize⟩

/-- The formatter that the configuration describes, if its rules compile. -/
def formatter (target : Target) : Except RuleError Formatter := do
  let rules ← Rules.compile target.rules
  return target.formatterWith rules.apply Label.sanitize

end Target

end LogIntake
