import LogIntake.Proofs.InternalLabels.Writes

/-! Which internal label comes from where. A fact about an entry or its envelope has one name, and
a map has all names that begin with the name of its family. No name belongs to two of them, so what
is written for one never touches a label of another, whatever the keys and the cleaning of keys.
-/

namespace LogIntake.InternalLabels

/-- What internal labels are made from: a fact with a name of its own, or a map whose keys are
cleaned and put behind the name of a family.
-/
inductive Origin where
  | fact (name value : String)
  | family (name : String) (source : NameMap)

namespace Origin

def name : Origin → String
  | .fact name _ => name
  | .family name _ => name

/-- The names that belong to an origin. -/
def Owns : Origin → String → Prop
  | .fact own _, name => name = own
  | .family own _, name => own.toList <+: name.toList

def writes (sanitize : String → String) : Origin → List (String × String)
  | .fact name value => [(name, value)]
  | .family name source => familyWrites name sanitize source

/-- The first owns no name of the second. -/
def Apart (first second : Origin) : Prop :=
  ∀ name, first.Owns name → ¬second.Owns name

variable {origin first second : Origin}

theorem Owns.prefix {name : String} (owned : origin.Owns name)
    : origin.name.toList <+: name.toList := by
  cases origin with
  | fact own value => exact owned ▸ List.prefix_rfl
  | family own source => exact owned

/-- Origins own different names if neither of their names begins with the other's. Witness: of two
texts that one text begins with, one begins with the other.
-/
theorem apart_of_names
    (names
      : ¬first.name.toList <+: second.name.toList ∧ ¬second.name.toList <+: first.name.toList)
    : first.Apart second := by
  intro name owned other
  rcases List.prefix_or_prefix_of_prefix owned.prefix other.prefix with begins | begins
  · exact names.1 begins
  · exact names.2 begins

/-- A family owns what begins with its name. -/
theorem owns_append (own : String) (source : NameMap) (fragment : String)
    : (family own source).Owns (own ++ fragment) := by
  rw [Owns, String.toList_append]
  exact List.prefix_append _ _

/-- What is written for an origin belongs to it. -/
theorem owns_of_mem_writes {sanitize : String → String} {write : String × String}
    (member : write ∈ origin.writes sanitize)
    : origin.Owns write.1 := by
  cases origin with
  | fact own value => exact congrArg Prod.fst (List.mem_singleton.mp member)
  | family own source =>
      obtain ⟨entry, _, same⟩ := List.mem_map.mp member
      exact same ▸ owns_append own source (sanitize entry.1)

end Origin

/-- The origins of an entry's labels, in the order of the writes. -/
def entryOrigins (entry : Entry) : List Origin :=
  [.fact logName entry.logName, .fact resourceKind entry.resource.kind,
    .fact severity entry.severity, .family resourceFamily entry.resource.labels,
    .family entryFamily entry.labels]

/-- The origins of an envelope's labels, in the order of the writes. -/
def envelopeOrigins (push : PushMessage) : List Origin :=
  [.fact messageId push.message.messageId, .fact subscription push.subscription,
    .family attributeFamily push.message.attributes]

theorem entryWrites_eq (entry : Entry) (sanitize : String → String)
    : entryWrites entry sanitize = (entryOrigins entry).flatMap (Origin.writes sanitize) := by
  simp [entryWrites, entryOrigins, Origin.writes]

theorem envelopeWrites_eq (push : PushMessage) (sanitize : String → String)
    : envelopeWrites push sanitize = (envelopeOrigins push).flatMap (Origin.writes sanitize) := by
  simp [envelopeWrites, envelopeOrigins, Origin.writes]

/-- No fixed name and no name of a family begins with another one. -/
theorem vocabulary_apart
    : vocabulary.Pairwise fun first second =>
        ¬first.toList <+: second.toList ∧ ¬second.toList <+: first.toList := by
  decide

/-- The labels of an entry and its envelope come from origins without common names. -/
theorem origins_apart (entry : Entry) (push : PushMessage)
    : (entryOrigins entry ++ envelopeOrigins push).Pairwise Origin.Apart := by
  have names : (entryOrigins entry ++ envelopeOrigins push).map Origin.name = vocabulary := rfl
  have apart := names ▸ vocabulary_apart
  exact (List.pairwise_map.mp apart).imp Origin.apart_of_names

theorem entryOrigins_apart (entry : Entry) : (entryOrigins entry).Pairwise Origin.Apart :=
  (List.pairwise_append.mp (origins_apart entry default)).1

theorem envelopeOrigins_apart (push : PushMessage)
    : (envelopeOrigins push).Pairwise Origin.Apart :=
  (List.pairwise_append.mp (origins_apart default push)).2.1

variable {origins : List Origin} {sanitize : String → String} {name : String}

/-- Where no origin owns a name, its label is as it was before the writes. -/
theorem get?_setAll_of_unowned (base : LabelSet)
    (unowned : ∀ origin ∈ origins, ¬origin.Owns name)
    : (base.setAll (origins.flatMap (Origin.writes sanitize))).get? name = base.get? name := by
  apply LabelSet.get?_setAll_of_unwritten
  intro write member same
  obtain ⟨origin, among, written⟩ := List.mem_flatMap.mp member
  exact unowned origin among (same ▸ Origin.owns_of_mem_writes written)

/-- A label has the value that the owner of its name alone would leave, by induction on the origins:
what is written before and after is written for others.
-/
theorem get?_setAll_of_owned (base : LabelSet) (apart : origins.Pairwise Origin.Apart)
    {origin : Origin} (member : origin ∈ origins) (owned : origin.Owns name)
    : (base.setAll (origins.flatMap (Origin.writes sanitize))).get? name
      = (base.setAll (origin.writes sanitize)).get? name := by
  induction origins generalizing base with
  | nil => cases member
  | cons head tail ih =>
      obtain ⟨headApart, tailApart⟩ := List.pairwise_cons.mp apart
      rw [List.flatMap_cons, LabelSet.setAll_append]
      rcases List.mem_cons.mp member with same | later
      · subst same
        exact get?_setAll_of_unowned _ fun other among => headApart other among name owned
      · rw [ih _ tailApart later]
        apply LabelSet.get?_setAll_congr
        apply LabelSet.get?_setAll_of_unwritten
        intro write written same
        exact headApart origin later name (same ▸ Origin.owns_of_mem_writes written) owned

end LogIntake.InternalLabels
