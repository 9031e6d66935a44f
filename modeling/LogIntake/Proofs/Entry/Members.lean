import LogIntake.Entry
import LogIntake.Proofs.DataFormat.Fields
import LogIntake.Proofs.Json.Ordered

/-! What the members of an entry say, as a grammar apart from the decoder. A member that is
absent or null says the empty value. Decoding a member succeeds exactly with what the grammar
says, for texts, for maps of texts and for resources, and a resource has a second form: the
list of its fields in the order of their declaration.
-/

namespace LogIntake.Entry

/-- The text that a member says. -/
inductive TextMember : Option Json → String → Prop
  | absent : TextMember none ""
  | null : TextMember (some .null) ""
  | text (text : String) : TextMember (some (.str text)) text

/-- The map that a member says, which maps a name exactly if the object has a member of that
name. All of these members are texts.
-/
inductive TextsMember : Option Json → NameMap → Prop
  | absent : TextsMember none .empty
  | null : TextsMember (some .null) .empty
  | texts {members map} (each : ∀ name, members.lookup name = (map.get? name).map Json.str)
    : TextsMember (some (.obj members)) map

/-- The resource that a member says. -/
inductive ResourceMember : Option Json → Resource → Prop
  | absent : ResourceMember none .empty
  | null : ResourceMember (some .null) .empty
  | fields {members resource} (kind : TextMember (members.lookup "type") resource.kind)
    (labels : TextsMember (members.lookup "labels") resource.labels)
    : ResourceMember (some (.obj members)) resource

/-- The resource that a list of at most two items says: its kind and then its labels. -/
inductive ListedResource : Option Json → Resource → Prop
  | items {items resource} (bounded : items.length ≤ 2)
    (kind : TextMember items[0]? resource.kind)
    (labels : TextsMember items[1]? resource.labels)
    : ListedResource (some (.arr items)) resource

/-- The values inside a member that was read are ordered. -/
def OrderedMember (member? : Option Json) : Prop :=
  ∀ value ∈ member?, Json.Ordered value

theorem orderedMember_lookup {members : List (String × Json)}
    (ordered : Json.Ordered (.obj members)) (name : String)
    : OrderedMember (members.lookup name) :=
  fun _ found => ordered.member found

theorem orderedMember_item {items : List Json} (ordered : Json.Ordered (.arr items)) (index : Nat)
    : OrderedMember items[index]? :=
  fun _ found => ordered.item (List.mem_of_getElem? found)

open DataFormat (decodeMember)

theorem decodeText_eq_ok_iff {member? : Option Json} {text : String}
    : decodeMember "" decodeText member? = .ok text ↔ TextMember member? text := by
  constructor
  · intro decoded
    cases member? with
    | none =>
        cases decoded
        exact .absent
    | some value =>
        cases value with
        | null =>
            cases decoded
            exact .null
        | str content =>
            cases decoded
            exact .text text
        | bool | num | arr | obj => cases decoded
  · intro said
    cases said with
    | absent | null | text => rfl

/-- Members in ascending order decode to the map that has their texts above what the map had
before. Witness: no later member has the name of the first one, so no text is replaced. -/
theorem decodeTexts_members {members : List (String × Json)}
    (ascending : members.Pairwise fun left right => left.1 < right.1) {start map : NameMap}
    : members.foldlM (fun map entry => do
          let text ← Json.asText entry.2
          return map.insert entry.1 text) start
        = .ok map
      ↔ ∀ name,
          (members.lookup name).or ((start.get? name).map Json.str)
          = (map.get? name).map Json.str := by
  have injective : Function.Injective Json.str := fun _ _ same => Json.str.inj same
  induction members generalizing start with
  | nil =>
      simp only [List.foldlM_nil, pure, Except.pure, Except.ok.injEq, List.lookup_nil,
        Option.none_or, (Option.map_injective injective).eq_iff]
      exact ⟨fun same name => same ▸ rfl, NameMap.ext_get?⟩
  | cons member rest ih =>
      obtain ⟨key, value⟩ := member
      obtain ⟨first, restAscending⟩ := List.pairwise_cons.mp ascending
      have unique : rest.lookup key = none := lookup_eq_none_of_below first
      have inserted (text name : String)
          : (rest.lookup name).or (((start.insert key text).get? name).map Json.str)
            = (((key, .str text) :: rest).lookup name).or ((start.get? name).map Json.str) := by
        rw [NameMap.get?_insert, lookup_cons_entry]
        by_cases same : name = key
        · simp [same, unique]
        · simp [same]
      rw [List.foldlM_cons, bind_eq_ok_iff]
      constructor
      · rintro ⟨next, stored, remaining⟩ name
        obtain ⟨text, isText, returned⟩ := bind_eq_ok_iff.mp stored
        cases returned
        have content : value = .str text := by
          cases value with
          | str content => exact congrArg Json.str (Except.ok.inj isText)
          | null | bool | num | arr | obj => cases isText
        rw [content, ← inserted]
        exact (ih restAscending).mp remaining name
      · intro told
        have atKey := told key
        rw [lookup_cons_entry, if_pos rfl, Option.some_or] at atKey
        obtain ⟨text, _, content⟩ := Option.map_eq_some_iff.mp atKey.symm
        subst content
        refine ⟨start.insert key text, rfl, (ih restAscending).mpr fun name => ?_⟩
        rw [inserted]
        exact told name

theorem decodeTexts_eq_ok_iff {member? : Option Json} (ordered : OrderedMember member?)
    {map : NameMap}
    : decodeMember .empty decodeTexts member? = .ok map ↔ TextsMember member? map := by
  constructor
  · intro decoded
    cases member? with
    | none =>
        cases decoded
        exact .absent
    | some value =>
        cases value with
        | null =>
            cases decoded
            exact .null
        | obj members =>
            have ascending := (ordered _ rfl).ascending_members
            refine .texts fun name => ?_
            have told := (decodeTexts_members ascending).mp decoded name
            simpa using told
        | bool | num | str | arr => cases decoded
  · intro said
    cases said with
    | absent | null => rfl
    | texts each =>
        apply (decodeTexts_members (ordered _ rfl).ascending_members).mpr
        intro name
        simpa using each name

/-- The fields of a resource in ascending order of their names. -/
def sortedResourceFields : List (Field Json Json.DecodeError Resource) :=
  [⟨"labels", fun resource value => do
      return { resource with labels := ← decodeTexts value }⟩,
   ⟨"type", fun resource value => do return { resource with kind := ← decodeText value }⟩]

theorem sortedResourceFields_ascending
    : sortedResourceFields.Pairwise fun left right => left.name < right.name := by
  rw [← List.pairwise_map]
  decide

theorem find?_resourceFields (name : String)
    : resourceFields.find? (fun field => field.name = name)
      = sortedResourceFields.find? (fun field => field.name = name) := by
  by_cases isType : name = "type"
  · subst isType
    rfl
  · by_cases isLabels : name = "labels"
    · subst isLabels
      rfl
    · simp [resourceFields, sortedResourceFields, Ne.symm isType, Ne.symm isLabels]

/-- The members of an object decode to the resource that they say. -/
theorem storeMembers_resource_eq_ok_iff {members : List (String × Json)}
    (ordered : Json.Ordered (.obj members)) {resource : Resource}
    : Json.dataFormat.storeMembers resourceFields [] .empty members = .ok resource
      ↔ TextMember (members.lookup "type") resource.kind
        ∧ TextsMember (members.lookup "labels") resource.labels := by
  rw [DataFormat.storeMembers_eq_storeFields _ sortedResourceFields_ascending find?_resourceFields
    ordered.ascending_members]
  unfold sortedResourceFields Resource.empty
  simp only [DataFormat.storeFields_nil_eq_ok_iff,
    DataFormat.storeFields_cons_eq_ok_iff
      (fun (resource : Resource) labels => { resource with labels }) .empty,
    DataFormat.storeFields_cons_eq_ok_iff
      (fun (resource : Resource) kind => { resource with kind }) "",
    decodeText_eq_ok_iff, decodeTexts_eq_ok_iff (orderedMember_lookup ordered _)]
  constructor
  · rintro ⟨_, labels, _, kind, rfl⟩
    exact ⟨kind, labels⟩
  · rintro ⟨kind, labels⟩
    exact ⟨_, labels, _, kind, rfl⟩

/-- A list of items decodes to the resource that it says. Further items would be an error. -/
theorem decodeResource_arr_eq_ok_iff {items : List Json} (ordered : Json.Ordered (.arr items))
    {resource : Resource}
    : decodeResource (.arr items) = .ok resource ↔ ListedResource (some (.arr items)) resource := by
  have stored
      : DataFormat.storeItems resourceFields .empty items = .ok resource
        ↔ TextMember items[0]? resource.kind ∧ TextsMember items[1]? resource.labels := by
    unfold resourceFields Resource.empty
    simp only [DataFormat.storeItems, Except.ok.injEq,
      DataFormat.storeItems_cons_eq_ok_iff
        (fun (resource : Resource) kind => { resource with kind }) "",
      DataFormat.storeItems_cons_eq_ok_iff
        (fun (resource : Resource) labels => { resource with labels }) .empty,
      List.getElem?_tail, decodeText_eq_ok_iff,
      decodeTexts_eq_ok_iff (orderedMember_item ordered 1)]
    constructor
    · rintro ⟨_, kind, _, labels, rfl⟩
      exact ⟨kind, labels⟩
    · rintro ⟨kind, labels⟩
      exact ⟨_, kind, _, labels, rfl⟩
  have counted : decodeResource (.arr items) = .ok resource
      ↔ DataFormat.storeItems resourceFields .empty items = .ok resource ∧ items.length ≤ 2 :=
    DataFormat.decodeRecord_listed_eq_ok_iff rfl fun _ => rfl
  rw [counted, stored]
  constructor
  · rintro ⟨⟨kind, labels⟩, bounded⟩
    exact .items bounded kind labels
  · rintro ⟨bounded, kind, labels⟩
    exact ⟨⟨kind, labels⟩, bounded⟩

/-- A resource decodes exactly as its member says, in either form. -/
theorem decodeResource_eq_ok_iff {member? : Option Json} (ordered : OrderedMember member?)
    {resource : Resource}
    : decodeMember .empty decodeResource member? = .ok resource
      ↔ ResourceMember member? resource ∨ ListedResource member? resource := by
  constructor
  · intro decoded
    cases member? with
    | none =>
        cases decoded
        exact .inl .absent
    | some value =>
        cases value with
        | null =>
            cases decoded
            exact .inl .null
        | obj members =>
            have ⟨kind, labels⟩ := (storeMembers_resource_eq_ok_iff (ordered _ rfl)).mp decoded
            exact .inl (.fields kind labels)
        | arr items => exact .inr ((decodeResource_arr_eq_ok_iff (ordered _ rfl)).mp decoded)
        | bool | num | str => cases decoded
  · rintro (said | listed)
    · cases said with
      | absent | null => rfl
      | fields kind labels =>
          exact (storeMembers_resource_eq_ok_iff (ordered _ rfl)).mpr ⟨kind, labels⟩
    · cases listed with
      | items bounded kind labels =>
          exact (decodeResource_arr_eq_ok_iff (ordered _ rfl)).mpr (.items bounded kind labels)

end LogIntake.Entry
