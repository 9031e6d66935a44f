import LogIntake.Json.Value

/-! Values can be compared, so what a document reads as can be computed and checked. -/

namespace LogIntake.Json

mutual

/-- Whether two values are the same at every level. -/
def same : Json → Json → Bool
  | .null, .null => true
  | .bool b, .bool other => b == other
  | .num n, .num other => n == other
  | .str text, .str other => text == other
  | .arr items, .arr others => sameItems items others
  | .obj members, .obj others => sameMembers members others
  | _, _ => false

def sameItems : List Json → List Json → Bool
  | [], [] => true
  | item :: items, other :: others => same item other && sameItems items others
  | _, _ => false

def sameMembers : List (String × Json) → List (String × Json) → Bool
  | [], [] => true
  | (name, value) :: members, (otherName, other) :: others =>
      name == otherName && same value other && sameMembers members others
  | _, _ => false

end

mutual

/-- By recursion on the first value, with its items and its members. -/
theorem same_iff : ∀ left right : Json, same left right = true ↔ left = right
  | .null, right => by cases right <;> simp [same]
  | .bool _, right => by cases right <;> simp [same]
  | .num _, right => by cases right <;> simp [same]
  | .str _, right => by cases right <;> simp [same]
  | .arr items, right => by
      cases right with
      | arr others => simp [same, sameItems_iff items others]
      | _ => simp [same]
  | .obj members, right => by
      cases right with
      | obj others => simp [same, sameMembers_iff members others]
      | _ => simp [same]

theorem sameItems_iff : ∀ left right : List Json, sameItems left right = true ↔ left = right
  | [], right => by cases right <;> simp [sameItems]
  | item :: items, right => by
      cases right with
      | nil => simp [sameItems]
      | cons other others => simp [sameItems, same_iff item other, sameItems_iff items others]

theorem sameMembers_iff
    : ∀ left right : List (String × Json), sameMembers left right = true ↔ left = right
  | [], right => by cases right <;> simp [sameMembers]
  | (name, value) :: members, right => by
      cases right with
      | nil => simp [sameMembers]
      | cons member others =>
          simp [sameMembers, same_iff value member.2, sameMembers_iff members others, Prod.ext_iff,
            and_assoc]

end

instance : DecidableEq Json :=
  fun left right => decidable_of_iff (same left right = true) (same_iff left right)

end LogIntake.Json
