import LogIntake.Entry
import LogIntake.Label.LabelSet
import LogIntake.Push

/-! The labels that rules work on. What is known about an entry and its envelope becomes
internal labels: fixed names for single facts, and families of names that end in a cleaned
key for attributes and labels. A record shows none of them unless a rule copies it.
-/

namespace LogIntake.InternalLabels

def logName : String :=
  "__gcp_logname"

def resourceKind : String :=
  "__gcp_resource_type"

def severity : String :=
  "__gcp_severity"

def resourceFamily : String :=
  "__gcp_resource_labels_"

def entryFamily : String :=
  "__gcp_labels_"

def messageId : String :=
  "__gcp_message_id"

def subscription : String :=
  "__gcp_subscription_name"

def attributeFamily : String :=
  "__gcp_attributes_"

/-- Sets a label of a family for each key, in ascending order of the keys: of two keys that
are cleaned to the same text, the later one counts.
-/
def setFamily (family : String) (sanitize : String → String) (source : NameMap)
    (labels : LabelSet)
    : LabelSet :=
  labels.setAll (source.entries.map fun entry => (family ++ sanitize entry.1, entry.2))

def assemble (entry : Entry) (base : LabelSet) (sanitize : String → String) : LabelSet :=
  base.set logName entry.logName
    |>.set resourceKind entry.resource.kind
    |>.set severity entry.severity
    |> setFamily resourceFamily sanitize entry.resource.labels
    |> setFamily entryFamily sanitize entry.labels

/-- The labels of an envelope, the base for those of its entry. -/
def ofPush (push : PushMessage) (sanitize : String → String) : LabelSet :=
  LabelSet.empty.set messageId push.message.messageId
    |>.set subscription push.subscription
    |> setFamily attributeFamily sanitize push.message.attributes

end LogIntake.InternalLabels
