import LogIntake.Regex.Compiled

/-! The paths that lead through a program. A search advances many paths together and gives up
most of them, but whatever it finds was noted along one path that starts at the entry, takes
one instruction after the other, and ends at the accepting instruction.
-/

namespace LogIntake.Regex

/-- The place in a text behind a number of characters. -/
def placeAt (text : List Char) (index : Nat) : Place :=
  ⟨index, if index = 0 then none else text[index - 1]?, text[index]?⟩

@[simp]
theorem placeAt_index (text : List Char) (index : Nat) : (placeAt text index).index = index :=
  rfl

/-- One instruction of a path, from a place to the same or the next one. -/
inductive Step (program : Program) (text : List Char) : Nat → Path → Nat → Path → Prop
  | look {index path look next}
    (inst : program.code.getD path.inst .accept = .look look next)
    (holds : look.holds (placeAt text index) = true)
    : Step program text index path index ⟨next, path.slots⟩
  | note {index path slot next} (inst : program.code.getD path.inst .accept = .note slot next)
    : Step program text index path index ⟨next, path.slots.set slot (some index)⟩
  | prefer {index path preferred other}
    (inst : program.code.getD path.inst .accept = .branch preferred other)
    : Step program text index path index ⟨preferred, path.slots⟩
  | avoid {index path preferred other}
    (inst : program.code.getD path.inst .accept = .branch preferred other)
    : Step program text index path index ⟨other, path.slots⟩
  | read {index path ranges next c}
    (inst : program.code.getD path.inst .accept = .chars ranges next)
    (char : text[index]? = some c) (member : ranges.contains c.toNat = true)
    : Step program text index path (index + 1) ⟨next, path.slots⟩

/-- The paths that lead to places of a text. They may enter anywhere in the text. -/
inductive Reaches (program : Program) (start : Slots) (text : List Char) : Nat → Path → Prop
  | enter {index} (inside : index ≤ text.length)
    : Reaches program start text index ⟨program.entry, start⟩
  | step {index path index' path'} (reached : Reaches program start text index path)
    (step : Step program text index path index' path')
    : Reaches program start text index' path'

/-- What was noted along a path that has come to an accepting instruction. -/
def Accepts (program : Program) (start : Slots) (text : List Char) (slots : Slots) : Prop :=
  ∃ index path,
    Reaches program start text index path
    ∧ program.code.getD path.inst .accept = .accept
    ∧ path.slots = slots

variable {program : Program} {start : Slots} {text : List Char}

theorem Reaches.inside {index : Nat} {path : Path} (reached : Reaches program start text index path)
    : index ≤ text.length := by
  induction reached with
  | enter inside => exact inside
  | step _ step ih =>
      cases step with
      | look | note | prefer | avoid => exact ih
      | read _ char => exact (List.getElem?_eq_some_iff.mp char).1

/-- What a step does is told by the instruction that it takes. -/
theorem Step.taken {index index' : Nat} {path path' : Path}
    (step : Step program text index path index' path')
    : match program.code.getD path.inst .accept with
      | .accept => False
      | .chars ranges next =>
          ∃ c,
            text[index]? = some c
            ∧ ranges.contains c.toNat = true
            ∧ index' = index + 1
            ∧ path' = ⟨next, path.slots⟩
      | .look condition next =>
          condition.holds (placeAt text index) = true
          ∧ index' = index
          ∧ path' = ⟨next, path.slots⟩
      | .note slot next => index' = index ∧ path' = ⟨next, path.slots.set slot (some index)⟩
      | .branch preferred other =>
          index' = index ∧ (path' = ⟨preferred, path.slots⟩ ∨ path' = ⟨other, path.slots⟩) := by
  cases step with
  | look inst holds =>
      rw [inst]
      exact ⟨holds, rfl, rfl⟩
  | note inst =>
      rw [inst]
      exact ⟨rfl, rfl⟩
  | prefer inst =>
      rw [inst]
      exact ⟨rfl, .inl rfl⟩
  | avoid inst =>
      rw [inst]
      exact ⟨rfl, .inr rfl⟩
  | read inst char member =>
      rw [inst]
      exact ⟨_, char, member, rfl, rfl⟩

/-- Some path has come to a place with a given text ahead of it. -/
def ReachesBefore (program : Program) (start : Slots) (text : List Char) (path : Path)
    (ahead : List Char)
    : Prop :=
  ∃ index, Reaches program start text index path ∧ text.drop index = ahead

namespace ReachesBefore

variable {inst next other : Nat} {ranges : Unicode.CodeRanges} {slots : Slots} {rest : List Char}

theorem prefer (reached : ReachesBefore program start text ⟨inst, slots⟩ rest)
    (branches : program.code.getD inst .accept = .branch next other)
    : ReachesBefore program start text ⟨next, slots⟩ rest := by
  obtain ⟨index, reached, ahead⟩ := reached
  exact ⟨index, reached.step (.prefer branches), ahead⟩

theorem avoid (reached : ReachesBefore program start text ⟨inst, slots⟩ rest)
    (branches : program.code.getD inst .accept = .branch other next)
    : ReachesBefore program start text ⟨next, slots⟩ rest := by
  obtain ⟨index, reached, ahead⟩ := reached
  exact ⟨index, reached.step (.avoid branches), ahead⟩

theorem read {c : Char} (reached : ReachesBefore program start text ⟨inst, slots⟩ (c :: rest))
    (reads : program.code.getD inst .accept = .chars ranges next)
    (member : ranges.contains c.toNat = true)
    : ReachesBefore program start text ⟨next, slots⟩ rest := by
  obtain ⟨index, reached, ahead⟩ := reached
  have char : text[index]? = some c := by rw [← List.head?_drop, ahead, List.head?_cons]
  refine ⟨index + 1, reached.step (.read reads char member), ?_⟩
  rw [← List.tail_drop, ahead, List.tail_cons]

/-- A path at the branch of a loop reads any number of characters that the loop reads, and is at the
branch again, by induction on these characters.
-/
theorem rounds {reader branch : Nat} {run : List Char}
    (reached : ReachesBefore program start text ⟨branch, slots⟩ (run ++ rest))
    (branches : program.code.getD branch .accept = .branch reader next)
    (reads : program.code.getD reader .accept = .chars ranges branch)
    (members : ∀ c ∈ run, ranges.contains c.toNat = true)
    : ReachesBefore program start text ⟨branch, slots⟩ rest := by
  induction run with
  | nil => exact reached
  | cons c run ih =>
      obtain ⟨first, others⟩ := List.forall_mem_cons.mp members
      have atReader := reached.prefer branches
      exact ih (atReader.read reads first) others

/-- A path at the reader of a loop reads one character or more, and leaves the loop. -/
theorem leave {reader branch : Nat} {run : List Char}
    (reached : ReachesBefore program start text ⟨reader, slots⟩ (run ++ rest))
    (reads : program.code.getD reader .accept = .chars ranges branch)
    (branches : program.code.getD branch .accept = .branch reader next) (nonempty : run ≠ [])
    (members : ∀ c ∈ run, ranges.contains c.toNat = true)
    : ReachesBefore program start text ⟨next, slots⟩ rest := by
  obtain ⟨c, run, rfl⟩ := List.exists_cons_of_ne_nil nonempty
  obtain ⟨first, others⟩ := List.forall_mem_cons.mp members
  have atBranch := reached.read reads first
  exact (atBranch.rounds branches reads others).avoid branches

/-- With nothing ahead of it, the path has come to the end of the text. -/
theorem reaches {path : Path} (reached : ReachesBefore program start text path [])
    : Reaches program start text text.length path := by
  obtain ⟨index, reached, ahead⟩ := reached
  have last : text.length ≤ index := List.drop_eq_nil_iff.mp ahead
  exact Nat.le_antisymm reached.inside last ▸ reached

end ReachesBefore

theorem follow_reaches {index fuel : Nat} {paths : List Path} {front : Front}
    (pending : ∀ path ∈ paths, Reaches program start text index path)
    (reached : ∀ path ∈ front.paths, Reaches program start text index path)
    : ∀ path ∈ (follow program (placeAt text index) fuel paths front).paths,
        Reaches program start text index path := by
  -- Each of the paths that are left takes one step of the bound, whether it goes on or ends.
  induction fuel generalizing paths front with
  | zero => exact reached
  | succ fuel ih =>
      cases paths with
      | nil => exact reached
      | cons path paths =>
          obtain ⟨first, rest⟩ := List.forall_mem_cons.mp pending
          rw [follow]
          split
          case isTrue => exact ih rest reached
          case isFalse =>
            dsimp only
            split
            case h_1 look next inst =>
              split
              case isTrue holds =>
                exact ih (List.forall_mem_cons.mpr ⟨.step first (.look inst holds), rest⟩) reached
              case isFalse => exact ih rest reached
            case h_2 slot next inst =>
              exact ih (List.forall_mem_cons.mpr ⟨.step first (.note inst), rest⟩) reached
            case h_3 preferred other inst =>
              have both := List.forall_mem_cons.mpr ⟨.step first (.avoid inst), rest⟩
              exact ih (List.forall_mem_cons.mpr ⟨.step first (.prefer inst), both⟩) reached
            case h_4 => exact ih rest (List.forall_mem_cons.mpr ⟨first, reached⟩)

theorem Front.add_reaches {index : Nat} {front : Front} {added : Path}
    (reached : ∀ path ∈ front.paths, Reaches program start text index path)
    (reachedAdded : Reaches program start text index added)
    : ∀ path ∈ (front.add program (placeAt text index) added).paths,
        Reaches program start text index path := by
  refine follow_reaches ?_ reached
  intro path member
  exact List.mem_singleton.mp member ▸ reachedAdded

theorem Front.enter_reaches {index : Nat} {front : Front} (found : Option Slots)
    (inside : index ≤ text.length)
    (reached : ∀ path ∈ front.paths, Reaches program start text index path)
    : ∀ path ∈ (front.enter program (placeAt text index) start found).paths,
        Reaches program start text index path := by
  rw [Front.enter]
  split
  case isTrue => exact Front.add_reaches reached (.enter inside)
  case isFalse => exact reached

theorem Front.empty_reaches {index : Nat}
    : ∀ path ∈ (Front.empty program).paths, Reaches program start text index path := by
  intro path member
  cases member

/-- Advancing paths over a character leads to paths at the next place, and what has reached
the end was accepted, by induction on the paths.
-/
theorem advance_reaches {index : Nat} (place : Place) {paths : List Path} {front : Front}
    (next : text[index]?.isSome = true → place = placeAt text (index + 1))
    (pending : ∀ path ∈ paths, Reaches program start text index path)
    (reached : ∀ path ∈ front.paths, Reaches program start text (index + 1) path)
    : (∀ path ∈ (advance program text[index]? place paths front).1.paths,
        Reaches program start text (index + 1) path)
      ∧ ∀ slots ∈ (advance program text[index]? place paths front).2,
          Accepts program start text slots := by
  induction paths generalizing front with
  | nil => exact ⟨reached, by simp [advance]⟩
  | cons path paths ih =>
      obtain ⟨first, rest⟩ := List.forall_mem_cons.mp pending
      cases inst : program.code.getD path.inst .accept with
      | accept =>
          refine ⟨by simpa [advance, inst] using reached, ?_⟩
          intro slots found
          have same : path.slots = slots := by simpa [advance, inst] using found
          exact ⟨index, path, first, inst, same⟩
      | chars ranges target =>
          cases char : text[index]? with
          | none =>
              rw [char] at ih
              simpa [advance, inst] using ih rest reached
          | some c =>
              rw [char] at ih next
              simp only [advance, inst]
              split
              case isTrue member =>
                rw [next rfl] at ih ⊢
                exact ih rest (Front.add_reaches reached (.step first (.read inst char member)))
              case isFalse => exact ih rest reached
      | look | note | branch => simpa [advance, inst] using ih rest reached

theorem or_accepts {first second : Option Slots}
    (acceptedFirst : ∀ slots ∈ first, Accepts program start text slots)
    (acceptedSecond : ∀ slots ∈ second, Accepts program start text slots)
    : ∀ slots ∈ first.or second, Accepts program start text slots := by
  cases first with
  | none => exact acceptedSecond
  | some slots => exact acceptedFirst

/-- What a search from a place finds was accepted, by induction on the text that is left. -/
theorem searchFrom_accepts {index : Nat} {found : Option Slots} {front : Front}
    {rest : List Char} (inside : index ≤ text.length) (remaining : text.drop index = rest)
    (reached : ∀ path ∈ front.paths, Reaches program start text index path)
    (accepted : ∀ slots ∈ found, Accepts program start text slots)
    : ∀ slots ∈ searchFrom program start found front (placeAt text index) rest,
        Accepts program start text slots := by
  induction rest generalizing index found front with
  | nil =>
      have atEnd : text[index]? = none := by rw [← List.head?_drop, remaining, List.head?_nil]
      have entered := Front.enter_reaches found inside reached
      have step := advance_reaches (placeAt text index) (by simp [atEnd])
        (fun path member => entered path (List.mem_reverse.mp member)) Front.empty_reaches
      rw [atEnd] at step
      exact or_accepts step.2 accepted
  | cons c rest ih =>
      have char : text[index]? = some c := by rw [← List.head?_drop, remaining, List.head?_cons]
      have more : index + 1 ≤ text.length := (List.getElem?_eq_some_iff.mp char).1
      have tail : text.drop (index + 1) = rest := by
        rw [← List.tail_drop, remaining, List.tail_cons]
      have next : (⟨index + 1, some c, rest.head?⟩ : Place) = placeAt text (index + 1) := by
        simp [placeAt, char, ← tail, List.head?_drop]
      have entered := Front.enter_reaches found inside reached
      have step := advance_reaches (placeAt text (index + 1)) (fun _ => rfl)
        (fun path member => entered path (List.mem_reverse.mp member)) Front.empty_reaches
      rw [char] at step
      rw [searchFrom]
      simp only [placeAt_index, next]
      generalize advance program (some c) (placeAt text (index + 1)) _ _ = outcome at step ⊢
      obtain ⟨advanced, arrived⟩ := outcome
      have either := or_accepts step.2 accepted
      dsimp only
      split
      case isTrue => exact either
      case isFalse => exact ih more tail step.1 either

/-- What a regular expression finds was noted along a path that has come to the end. -/
theorem findFrom_accepts {regex : LogIntake.Regex} {text : List Char} {index : Nat}
    {found : Match} (inside : index ≤ text.length)
    (finds : regex.findFrom text index = some found)
    : Accepts regex.program (List.replicate (2 * regex.captures + 2) none) text found.slots := by
  obtain ⟨slots, search, rfl⟩ := Option.map_eq_some_iff.mp finds
  rw [List.head?_drop] at search
  exact searchFrom_accepts inside rfl Front.empty_reaches (by simp) slots search

end LogIntake.Regex
