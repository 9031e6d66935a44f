import LogIntake.Proofs.InternalLabels.Origins

/-! The labels of an envelope and of its entry in one set. Whoever writes an entry or publishes a
message chooses the keys of its maps, and a key can be any text. Still each label of the set is what
its own origin alone would have left, so no key sets, overwrites or removes a label of another
origin.
-/

namespace LogIntake.InternalLabels

/-- The names of the labels that tell of an envelope. -/
def TellsEnvelope (name : String) : Prop :=
  name = messageId ∨ name = subscription ∨ attributeFamily.toList <+: name.toList

/-- The names of the labels that tell of an entry. -/
def TellsEntry (name : String) : Prop :=
  name = logName
  ∨ name = resourceKind
  ∨ name = severity
  ∨ resourceFamily.toList <+: name.toList
  ∨ entryFamily.toList <+: name.toList

theorem tellsEnvelope_iff {push : PushMessage} {name : String}
    : TellsEnvelope name ↔ ∃ origin ∈ envelopeOrigins push, origin.Owns name := by
  simp [TellsEnvelope, envelopeOrigins, Origin.Owns]

theorem tellsEntry_iff {entry : Entry} {name : String}
    : TellsEntry name ↔ ∃ origin ∈ entryOrigins entry, origin.Owns name := by
  simp [TellsEntry, entryOrigins, Origin.Owns]

theorem Origin.Apart.symm {first second : Origin} (apart : first.Apart second)
    : second.Apart first :=
  fun name owned other => apart name other owned

theorem pushOrigins_apart (push : PushMessage) (entry : Entry)
    : (envelopeOrigins push ++ entryOrigins entry).Pairwise Origin.Apart :=
  (List.pairwise_append_comm Origin.Apart.symm).mp (origins_apart entry push)

/-- An entry in its envelope leaves the writes of all origins of both, the envelope's first. -/
theorem assemble_ofPush_eq_setAll (push : PushMessage) (entry : Entry)
    (sanitize : String → String)
    : assemble entry (ofPush push sanitize) sanitize
      = LabelSet.empty.setAll
          ((envelopeOrigins push ++ entryOrigins entry).flatMap (Origin.writes sanitize)) := by
  rw [assemble_eq_setAll, ofPush_eq_setAll, envelopeWrites_eq, entryWrites_eq, List.flatMap_append,
    LabelSet.setAll_append]

/-- For every message, entry and cleaning of keys, the labels that tell of the envelope are those of
the envelope without the entry, the labels that tell of the entry are those of the entry without the
envelope, and each label is what the origin that owns its name would have left by itself.
-/
theorem origins_never_interfere (push : PushMessage) (entry : Entry)
    (sanitize : String → String)
    : let labels := assemble entry (ofPush push sanitize) sanitize
      (∀ name, TellsEnvelope name → labels.get? name = (ofPush push sanitize).get? name)
      ∧ (∀ name,
          TellsEntry name → labels.get? name = (assemble entry .empty sanitize).get? name)
      ∧ ∀ origin ∈ envelopeOrigins push ++ entryOrigins entry,
          ∀ name,
            origin.Owns name
            → labels.get? name = (LabelSet.empty.setAll (origin.writes sanitize)).get? name := by
  intro labels
  have alone {origin : Origin} {name : String}
      (member : origin ∈ envelopeOrigins push ++ entryOrigins entry) (owned : origin.Owns name)
      : labels.get? name = (LabelSet.empty.setAll (origin.writes sanitize)).get? name := by
    dsimp only [labels]
    rw [assemble_ofPush_eq_setAll]
    exact get?_setAll_of_owned .empty (pushOrigins_apart push entry) member owned
  refine ⟨?_, ?_, fun origin member name owned => alone member owned⟩
  · intro name tells
    obtain ⟨origin, member, owned⟩ := tellsEnvelope_iff.mp tells
    rw [alone (List.mem_append_left _ member) owned, ofPush_eq_setAll, envelopeWrites_eq]
    exact (get?_setAll_of_owned .empty (envelopeOrigins_apart push) member owned).symm
  · intro name tells
    obtain ⟨origin, member, owned⟩ := tellsEntry_iff.mp tells
    rw [alone (List.mem_append_right _ member) owned, assemble_eq_setAll, entryWrites_eq]
    exact (get?_setAll_of_owned .empty (entryOrigins_apart entry) member owned).symm

/-- Keys that are taken as they are and look like names of other labels leave those labels alone. -/
theorem origins_never_interfere_spoofed_keys
    : let push : PushMessage :=
        {
          (default : PushMessage) with
          message :=
            {
              PushPayload.empty with
              attributes := .ofList [("", "a"), ("__gcp_severity", "DEBUG")]
              messageId := "7"
            }
        }
      let entry : Entry :=
        {
          Entry.empty with
          resource := ⟨"", .ofList [("type", "b")]⟩
          severity := "ERROR"
          labels := .ofList [("../__gcp_message_id", "")]
        }
      let labels := assemble entry (ofPush push id) id
      TellsEnvelope messageId
      ∧ labels.get? messageId = (ofPush push id).get? messageId
      ∧ TellsEntry severity
      ∧ labels.get? severity = (assemble entry .empty id).get? severity
      ∧ (Origin.fact resourceKind "").Owns resourceKind
      ∧ labels.get? resourceKind = none
      ∧ labels.toList
        = [("__gcp_attributes_", "a"), ("__gcp_attributes___gcp_severity", "DEBUG"),
           ("__gcp_message_id", "7"), ("__gcp_resource_labels_type", "b"),
           ("__gcp_severity", "ERROR")] := by
  intro push entry labels
  obtain ⟨envelope, delivered, alone⟩ := origins_never_interfere push entry id
  have tellsId : TellsEnvelope messageId := .inl rfl
  have tellsSeverity : TellsEntry severity := .inr (.inr (.inl rfl))
  have kind : .fact resourceKind "" ∈ envelopeOrigins push ++ entryOrigins entry := by
    simp [entryOrigins, entry]
  have absent := alone _ kind resourceKind rfl
  exact ⟨tellsId, envelope messageId tellsId, tellsSeverity, delivered severity tellsSeverity, rfl,
    absent, by decide +kernel⟩

end LogIntake.InternalLabels
