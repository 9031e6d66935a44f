import LogIntake.DataFormat
import LogIntake.Proofs.NameMap.Lookup
import LogIntake.Proofs.Outcome

/-! Decoding records field by field. Where the members of a record stand in ascending order of
names, the fields are stored in ascending order of their own names, each from a lookup, so that
neither unknown members nor the list of members itself matters any more. The fields of a listed
record are stored in the order in which they are declared, each from the item at its place. What
every field keeps of a record holds of all decoded ones, whichever way they are written.
-/

namespace LogIntake.DataFormat

variable {ν ε α β : Type}

/-- Stores fields in their own order, each from the member of its name if there is one. -/
def storeFields (member? : String → Option ν) : List (Field ν ε α) → α → Except ε α
  | [], record => .ok record
  | field :: rest, record =>
      match member? field.name with
      | none => storeFields member? rest record
      | some value => do
          let record ← field.store record value
          storeFields member? rest record

theorem storeFields_congr {left right : String → Option ν} {fields : List (Field ν ε α)}
    (agree : ∀ field ∈ fields, left field.name = right field.name) (record : α)
    : storeFields left fields record = storeFields right fields record := by
  induction fields generalizing record with
  | nil => rfl
  | cons field rest ih =>
      obtain ⟨head, tail⟩ := List.forall_mem_cons.mp agree
      unfold storeFields
      rw [head]
      cases right field.name with
      | none => exact ih tail record
      | some value => simp only [ih tail]

theorem find?_of_ascending {sorted : List (Field ν ε α)}
    (ascending : sorted.Pairwise fun left right => left.name < right.name)
    {field : Field ν ε α} (member : field ∈ sorted)
    : sorted.find? (fun other => other.name = field.name) = some field := by
  induction sorted with
  | nil => cases member
  | cons head tail ih =>
      obtain ⟨first, rest⟩ := List.pairwise_cons.mp ascending
      rcases List.mem_cons.mp member with rfl | later
      · simp
      · have different : head.name ≠ field.name := String.ne_of_lt (first field later)
        simp only [List.find?_cons, different, decide_false, ih rest later]

/-- Whether a name is that of a field. -/
def isKnown (fields : List (Field ν ε α)) (name : String) : Bool :=
  (fields.find? fun field => field.name = name).isSome

/-- Members of unknown names are passed over, by induction on the members. -/
theorem storeMembers_filter_known (format : DataFormat ν ε) (fields : List (Field ν ε α))
    (seen : List String) (record : α) (members : List (String × ν))
    : format.storeMembers fields seen record (members.filter fun member => isKnown fields member.1)
      = format.storeMembers fields seen record members := by
  induction members generalizing seen record with
  | nil => rfl
  | cons member rest ih =>
      obtain ⟨name, value⟩ := member
      cases found : fields.find? fun field => field.name = name with
      | none =>
          have unknown : ¬ isKnown fields name = true := by simp [isKnown, found]
          rw [List.filter_cons, if_neg unknown, ih]
          simp only [storeMembers, found]
      | some field =>
          have known : isKnown fields name = true := by simp [isKnown, found]
          rw [List.filter_cons, if_pos known]
          simp only [storeMembers, found, ih]

theorem storeMembers_known_eq_storeFields (format : DataFormat ν ε)
    {fields pending : List (Field ν ε α)} {members : List (String × ν)}
    (fieldOrder : pending.Pairwise fun left right => left.name < right.name)
    (memberOrder : members.Pairwise fun left right => left.1 < right.1)
    (finds
      : ∀ field ∈ pending, fields.find? (fun other => other.name = field.name) = some field)
    (known : ∀ member ∈ members, ∃ field ∈ pending, field.name = member.1)
    {seen : List String} (fresh : ∀ member ∈ members, member.1 ∉ seen) (record : α)
    : format.storeMembers fields seen record members
      = storeFields (fun name => members.lookup name) pending record := by
  -- The first field either has the first member or has none at all, since every member is of a
  -- later field.
  induction pending generalizing members seen record with
  | nil =>
      cases members with
      | nil => rfl
      | cons member rest =>
          obtain ⟨_, impossible, _⟩ := known member (by simp)
          cases impossible
  | cons field rest ih =>
      obtain ⟨firstField, restOrder⟩ := List.pairwise_cons.mp fieldOrder
      obtain ⟨findsFirst, findsRest⟩ := List.forall_mem_cons.mp finds
      cases members with
      | nil =>
          have noneFresh : ∀ member ∈ ([] : List (String × ν)), member.1 ∉ seen := by simp
          have noneLeft := ih restOrder .nil findsRest (by simp) noneFresh record
          simpa only [storeFields, List.lookup_nil] using noneLeft
      | cons member tail =>
          obtain ⟨name, value⟩ := member
          obtain ⟨firstMember, tailOrder⟩ := List.pairwise_cons.mp memberOrder
          obtain ⟨freshFirst, freshTail⟩ := List.forall_mem_cons.mp fresh
          by_cases same : field.name = name
          · have tailKnown : ∀ member ∈ tail, ∃ field ∈ rest, field.name = member.1 := by
              intro member inTail
              obtain ⟨owner, candidate, owns⟩ := known member (List.mem_cons_of_mem _ inTail)
              rcases List.mem_cons.mp candidate with rfl | later
              · exact absurd (same.symm.trans owns) (String.ne_of_lt (firstMember member inTail))
              · exact ⟨owner, later, owns⟩
            have tailFresh : ∀ member ∈ tail, member.1 ∉ name :: seen := by
              intro member inTail repeated
              rcases List.mem_cons.mp repeated with again | earlier
              · exact String.ne_of_lt (firstMember member inTail) again.symm
              · exact freshTail member inTail earlier
            have tailStored (next : α) := ih restOrder tailOrder findsRest tailKnown tailFresh next
            have restStored (next : α)
                : format.storeMembers fields (name :: seen) next tail
                  = storeFields (fun other => ((name, value) :: tail).lookup other) rest next := by
              rw [ih restOrder tailOrder findsRest tailKnown tailFresh next]
              apply storeFields_congr
              intro other inRest
              have different : other.name ≠ name :=
                fun equal => String.ne_of_lt (firstField other inRest) (same.trans equal.symm)
              rw [lookup_cons_entry, if_neg different]
            have unseen : seen.contains name = false := by simpa using freshFirst
            rw [same] at findsFirst
            simp only [storeMembers, findsFirst, unseen, Bool.false_eq_true, if_false, restStored,
              storeFields, same, lookup_cons_entry name, if_true]
          · have later : field.name < name := by
              obtain ⟨owner, candidate, owns⟩ := known (name, value) (by simp)
              rcases List.mem_cons.mp candidate with rfl | inRest
              · exact absurd owns same
              · have before := firstField owner inRest
                rwa [owns] at before
            have below : ∀ member ∈ (name, value) :: tail, field.name < member.1 := by
              intro member inMembers
              rcases List.mem_cons.mp inMembers with rfl | inTail
              · exact later
              · exact String.lt_trans later (firstMember member inTail)
            have restKnown
                : ∀ member ∈ (name, value) :: tail, ∃ field ∈ rest, field.name = member.1 := by
              intro member inMembers
              obtain ⟨owner, candidate, owns⟩ := known member inMembers
              rcases List.mem_cons.mp candidate with rfl | inRest
              · exact absurd owns (String.ne_of_lt (below member inMembers))
              · exact ⟨owner, inRest, owns⟩
            rw [ih restOrder memberOrder findsRest restKnown fresh, storeFields,
              lookup_eq_none_of_below below]

/-- Ascending members are stored like ascending fields. Witness: unknown members are passed
over, and the known ones stand in the order of the fields.
-/
theorem storeMembers_eq_storeFields (format : DataFormat ν ε)
    {fields sorted : List (Field ν ε α)} {members : List (String × ν)}
    (fieldOrder : sorted.Pairwise fun left right => left.name < right.name)
    (represents
      : ∀ name,
          fields.find? (fun field => field.name = name)
          = sorted.find? (fun field => field.name = name))
    (memberOrder : members.Pairwise fun left right => left.1 < right.1) (record : α)
    : format.storeMembers fields [] record members
      = storeFields (fun name => members.lookup name) sorted record := by
  have finds : ∀ field ∈ sorted,
      fields.find? (fun other => other.name = field.name) = some field := by
    intro field member
    rw [represents field.name]
    exact find?_of_ascending fieldOrder member
  have known : ∀ member ∈ members.filter fun member => isKnown fields member.1,
      ∃ field ∈ sorted, field.name = member.1 := by
    intro member kept
    have isField := (List.mem_filter.mp kept).2
    rw [isKnown, represents, Option.isSome_iff_exists] at isField
    obtain ⟨field, found⟩ := isField
    exact ⟨field, List.mem_of_find?_eq_some found, by simpa using List.find?_some found⟩
  rw [← storeMembers_filter_known, storeMembers_known_eq_storeFields format fieldOrder
    (memberOrder.filter _) finds known (by simp)]
  apply storeFields_congr
  intro field member
  apply lookup_filter_names
  rw [isKnown, finds field member]
  rfl

/-- What the member of a field decodes to: a default if there is no member. -/
def decodeMember (default : β) (decode : ν → Except ε β) : Option ν → Except ε β
  | none => .ok default
  | some value => decode value

theorem storeFields_nil_eq_ok_iff {member? : String → Option ν} {record final : α}
    : (storeFields member? [] record : Except ε α) = .ok final ↔ record = final := by
  rw [storeFields, Except.ok.injEq]

/-- A first field that puts what it decodes into the record, if the record holds the default
there as long as nothing is put.
-/
theorem storeFields_cons_eq_ok_iff (put : α → β → α) (default : β) {decode : ν → Except ε β}
    {member? : String → Option ν} {name : String} {rest : List (Field ν ε α)} {record final : α}
    (keeps : put record default = record)
    : storeFields member?
          (⟨name, fun record value => do return put record (← decode value)⟩ :: rest) record
        = .ok final
      ↔ ∃ value,
          decodeMember default decode (member? name) = .ok value
          ∧ storeFields member? rest (put record value) = .ok final := by
  rw [← bind_eq_ok_iff, storeFields]
  cases member? name with
  | none => simp [decodeMember, bind, Except.bind, keeps]
  | some value => simp only [decodeMember, bind_assoc, pure_bind]

/-- A first field of a listed record, which takes the first item. Witness: without items nothing
is put, and the record holds the default.
-/
theorem storeItems_cons_eq_ok_iff (put : α → β → α) (default : β) {decode : ν → Except ε β}
    {name : String} {rest : List (Field ν ε α)} {record final : α} {items : List ν}
    (keeps : put record default = record)
    : storeItems
          (⟨name, fun record value => do return put record (← decode value)⟩ :: rest) record items
        = .ok final
      ↔ ∃ value,
          decodeMember default decode items[0]? = .ok value
          ∧ storeItems rest (put record value) items.tail = .ok final := by
  rw [← bind_eq_ok_iff]
  cases items with
  | nil => cases rest <;> simp [storeItems, decodeMember, bind, Except.bind, keeps]
  | cons value items =>
      simp only [storeItems, decodeMember, List.getElem?_cons_zero, List.tail_cons, bind_assoc,
        pure_bind]

/-- A listed record has no more items than fields, in a format where further items are an
error.
-/
theorem decodeRecord_listed_eq_ok_iff {format : DataFormat ν ε} {expected : String}
    {fields : List (Field ν ε α)} {default record : α} {value : ν} {items : List ν}
    (listed : format.record expected value = .ok (.listed items))
    (strict : ∀ count, (format.surplusItems count).isSome = true)
    : format.decodeRecord expected fields default value = .ok record
      ↔ storeItems fields default items = .ok record ∧ items.length ≤ fields.length := by
  rw [decodeRecord, listed]
  change (storeItems fields default items >>= _) = .ok record ↔ _
  obtain ⟨surplus, isSurplus⟩ := Option.isSome_iff_exists.mp (strict items.length)
  rw [bind_eq_ok_iff, isSurplus]
  by_cases long : fields.length < items.length
  · simp only [if_pos long, Nat.not_le.mpr long, and_false, iff_false]
    rintro ⟨_, _, failed⟩
    cases failed
  · simp [if_neg long, Nat.not_lt.mp long, pure, Except.pure]

-----------------------------------------------------------------------------------------
-- What decoding keeps
-----------------------------------------------------------------------------------------

/-- Storing into a field keeps what is known of a record. -/
def Keeps (holds : α → Prop) (field : Field ν ε α) : Prop :=
  ∀ record value next, field.store record value = .ok next → holds record → holds next

/-- A field that puts what it decodes into the record keeps what putting such values keeps. -/
theorem keeps_put {holds : α → Prop} {name : String} (put : α → β → α) {decode : ν → Except ε β}
    (kept
      : ∀ record value own, decode value = .ok own → holds record → holds (put record own))
    : Keeps holds ⟨name, fun record value => do return put record (← decode value)⟩ := by
  intro record value next stored start
  obtain ⟨own, decoded, put⟩ := bind_eq_ok_iff.mp stored
  cases put
  exact kept record value own decoded start

theorem storeMembers_keeps {format : DataFormat ν ε} {fields : List (Field ν ε α)}
    {holds : α → Prop} (keeps : ∀ field ∈ fields, Keeps holds field) {seen : List String}
    {record final : α} {members : List (String × ν)}
    (stored : format.storeMembers fields seen record members = .ok final) (start : holds record)
    : holds final := by
  induction members generalizing seen record with
  | nil =>
      cases stored
      exact start
  | cons member members ih =>
      obtain ⟨name, value⟩ := member
      rw [storeMembers] at stored
      split at stored
      case h_1 => exact ih stored start
      case h_2 field found =>
        split at stored
        case isTrue => cases stored
        case isFalse =>
          obtain ⟨next, own, stored⟩ := bind_eq_ok_iff.mp stored
          have known : field ∈ fields := List.mem_of_find?_eq_some found
          exact ih stored (keeps field known record value next own start)

theorem storeItems_keeps {fields : List (Field ν ε α)} {holds : α → Prop}
    (keeps : ∀ field ∈ fields, Keeps holds field) {record final : α} {items : List ν}
    (stored : storeItems fields record items = .ok final) (start : holds record)
    : holds final := by
  induction fields generalizing record items with
  | nil =>
      cases stored
      exact start
  | cons field fields ih =>
      obtain ⟨first, rest⟩ := List.forall_mem_cons.mp keeps
      cases items with
      | nil =>
          cases stored
          exact start
      | cons value items =>
          obtain ⟨next, own, stored⟩ := bind_eq_ok_iff.mp stored
          exact ih rest stored (first record value next own start)

/-- What holds of the default and is kept by every field holds of every decoded record. -/
theorem decodeRecord_keeps {format : DataFormat ν ε} {expected : String}
    {fields : List (Field ν ε α)} {holds : α → Prop}
    (keeps : ∀ field ∈ fields, Keeps holds field) {default record : α} {value : ν}
    (decoded : format.decodeRecord expected fields default value = .ok record)
    (start : holds default)
    : holds record := by
  obtain ⟨form, _, decoded⟩ := bind_eq_ok_iff.mp decoded
  cases form with
  | named members => exact storeMembers_keeps keeps decoded start
  | listed items =>
      obtain ⟨stored, own, decoded⟩ := bind_eq_ok_iff.mp decoded
      have holdsStored := storeItems_keeps keeps own start
      split at decoded
      case isFalse =>
        cases decoded
        exact holdsStored
      case isTrue =>
        split at decoded
        case h_1 => cases decoded
        case h_2 =>
          cases decoded
          exact holdsStored

/-- What holds of all that items decode to holds of every member of a decoded list. -/
theorem forall_mem_of_decodeList {format : DataFormat ν ε} {decode : ν → Except ε β}
    {holds : β → Prop} (own : ∀ value item, decode value = .ok item → holds item) {value : ν}
    {items : List β} (decoded : format.decodeList decode value = .ok items)
    : ∀ item ∈ items, holds item := by
  obtain ⟨values, -, each⟩ := bind_eq_ok_iff.mp decoded
  clear decoded
  induction values generalizing items with
  | nil =>
      cases each
      nofun
  | cons first values ih =>
      rw [List.mapM_cons] at each
      obtain ⟨item, firstDecoded, each⟩ := bind_eq_ok_iff.mp each
      obtain ⟨rest, restDecoded, each⟩ := bind_eq_ok_iff.mp each
      cases each
      exact List.forall_mem_cons.mpr ⟨own first item firstDecoded, ih restDecoded⟩

end LogIntake.DataFormat
