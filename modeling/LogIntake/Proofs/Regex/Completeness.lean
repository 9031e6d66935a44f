import LogIntake.Proofs.Regex.Numbering
import LogIntake.Proofs.Regex.Paths

/-! A search misses no match. At each place it comes to every instruction that a path leads to: an
instruction is left only when all that it goes on to without reading has been come to as well, and
every path that can read the next character is advanced over it. So where some path is accepted the
search finds a match, and with what is known about paths it finds one exactly there.
-/

namespace LogIntake.Regex

variable {program : Program} {place : Place} {front : Front} {path : Path}

-----------------------------------------------------------------------------------------
-- Where instructions go on to
-----------------------------------------------------------------------------------------

/-- The instructions that an instruction names as the next ones. -/
def Inst.targets : Inst → List Nat
  | .accept => []
  | .chars _ next | .look _ next | .note _ next => [next]
  | .branch preferred other => [preferred, other]

/-- The instructions that an instruction goes on to without reading a character. -/
def Inst.freeTargets (place : Place) : Inst → List Nat
  | .accept | .chars _ _ => []
  | .look condition next => if condition.holds place then [next] else []
  | .note _ next => [next]
  | .branch preferred other => [preferred, other]

/-- A path waits at an instruction that reads or accepts. -/
def Inst.Waits : Inst → Prop
  | .accept | .chars _ _ => True
  | .look _ _ | .note _ _ | .branch _ _ => False

theorem Inst.mem_targets_of_free {inst : Inst} {target : Nat}
    (free : target ∈ inst.freeTargets place)
    : target ∈ inst.targets := by
  cases inst with
  | accept | chars => cases free
  | look look next =>
      rw [freeTargets] at free
      split at free
      case isTrue => exact free
      case isFalse => cases free
  | note | branch => exact free

theorem Inst.length_freeTargets_le (inst : Inst) : (inst.freeTargets place).length ≤ 2 := by
  cases inst with
  | accept | chars | note | branch => simp [freeTargets]
  | look condition next =>
      rw [freeTargets]
      split
      case isTrue => simp
      case isFalse => simp

/-- Every instruction that a program can come to is there. -/
structure Program.Closed (program : Program) : Prop where
  entry : program.entry < program.code.size
  targets
    : ∀ index, ∀ target ∈ (program.code.getD index .accept).targets, target < program.code.size

theorem Inst.Within.target {inside : Nat → Prop} {inst : Inst} (within : inst.Within inside)
    {target : Nat} (member : target ∈ inst.targets)
    : inside target := by
  cases inst with
  | accept => cases member
  | chars | look => exact List.mem_singleton.mp member ▸ within
  | note => exact List.mem_singleton.mp member ▸ within.2
  | branch =>
      simp only [targets, List.mem_cons, List.not_mem_nil, or_false] at member
      rcases member with rfl | rfl
      · exact within.1
      · exact within.2

/-- The program of an expression is closed: its fragment goes on to itself and to the instructions
that stand before it.
-/
theorem Expr.Numbered.program_closed {expr : Expr} (numbered : expr.Numbered)
    : expr.program.Closed := by
  let closing : Code := #[.accept, .note 1 0]
  have extension := numbered.fragment_sound 1 closing
  let inner := (expr.fragment 1 closing).1
  let body := (expr.fragment 1 closing).2
  have shape : expr.program = ⟨body.push (.note 0 inner), body.size⟩ := by
    simp [Expr.program, Expr.fragment, emit, closing, inner, body]
  have grows : 2 ≤ body.size := extension.grows
  have size : (body.push (.note 0 inner)).size = body.size + 1 := Array.size_push _
  have bounded {target : Nat} (inside : Inside 1 2 body.size target) : target < body.size + 1 := by
    rcases inside with same | between
    · omega
    · omega
  rw [shape]
  refine ⟨by simp, ?_⟩
  intro index target member
  rw [Array.getD_eq_getD_getElem?, Array.getElem?_push] at member
  dsimp only at member ⊢
  rw [size]
  split at member
  case isTrue =>
    cases List.mem_singleton.mp member
    exact bounded extension.enters
  case isFalse =>
    by_cases early : index < 2
    · rw [extension.keeps index early] at member
      have small : ∀ index < 2, ∀ target ∈ (closing[index]?.getD .accept).targets, target = 0 := by
        decide
      rw [small index early target member]
      omega
    · cases found : body[index]? with
      | none =>
          rw [found] at member
          cases member
      | some inst =>
          rw [found] at member
          exact bounded ((extension.stays index (Nat.le_of_not_lt early) inst found).target member)

/-- A compiled expression has a closed program. -/
theorem closed_of_compile {pattern : String} {regex : LogIntake.Regex}
    (compiled : Regex.compile pattern = .ok regex)
    : regex.program.Closed := by
  obtain ⟨reading, expr, flags, read, made, program⟩ := program_of_compile compiled
  exact program ▸ ((parse_numbered read).toExpr made).program_closed

-----------------------------------------------------------------------------------------
-- Following paths comes to everything that is reached without reading
-----------------------------------------------------------------------------------------

/-- Some path has come to the instruction. -/
def Front.Seen (front : Front) (inst : Nat) : Prop :=
  front.visited[inst]? = some true

/-- All that goes on without reading from an instruction that was come to has been come to or is
still pending, and where paths wait a path is kept.
-/
structure Front.Settled (program : Program) (place : Place) (pending : List Nat) (front : Front)
    : Prop where
  size : front.visited.size = program.code.size
  follows
    : ∀ inst,
        front.Seen inst
        → ∀ next ∈ (program.code.getD inst .accept).freeTargets place,
            front.Seen next ∨ next ∈ pending
  keeps
    : ∀ inst,
        front.Seen inst
        → (program.code.getD inst .accept).Waits
        → ∃ path ∈ front.paths, path.inst = inst

/-- How many instructions nothing has come to. -/
def Front.unseen (front : Front) : Nat :=
  front.visited.count false

/-- Everything that one front has come to, the other has come to. -/
def Front.GrowsTo (front grown : Front) : Prop :=
  ∀ inst, front.Seen inst → grown.Seen inst

/-- The front in which the instruction of a path has been come to. -/
def Front.visit (front : Front) (path : Path) (kept : List Path) : Front :=
  ⟨kept, front.visited.setIfInBounds path.inst true⟩

theorem Front.seen_visit (inside : path.inst < front.visited.size) (kept : List Path)
    (inst : Nat)
    : (front.visit path kept).Seen inst ↔ inst = path.inst ∨ front.Seen inst := by
  unfold Seen visit
  by_cases same : path.inst = inst
  · subst same
    rw [Array.getElem?_setIfInBounds_self_of_lt inside]
    exact ⟨fun _ => .inl rfl, fun _ => rfl⟩
  · rw [Array.getElem?_setIfInBounds_ne same]
    exact ⟨.inr, fun either => either.resolve_left fun equal => same equal.symm⟩

theorem Front.unseen_visit (inside : path.inst < front.visited.size)
    (unseen : front.visited.getD path.inst true = false) (kept : List Path)
    : (front.visit path kept).unseen + 1 = front.unseen := by
  have old : front.visited[path.inst] = false := by
    rwa [Array.getD_eq_getD_getElem?, Array.getElem?_eq_getElem inside, Option.getD_some] at unseen
  have counted : 0 < front.visited.count false :=
    Array.count_pos_iff.mpr (old ▸ Array.getElem_mem inside)
  simp only [Front.unseen, visit, Array.setIfInBounds_def, inside, dite_true, Array.count_set, old]
  simp only [beq_self_eq_true, if_true, Bool.true_eq_false, beq_iff_eq, if_false]
  omega

theorem Front.seen_of_visited {inst : Nat} (inside : inst < front.visited.size)
    (visited : front.visited.getD inst true = true)
    : front.Seen inst := by
  rw [Array.getD_eq_getD_getElem?, Array.getElem?_eq_getElem inside, Option.getD_some] at visited
  exact Array.getElem?_eq_some_iff.mpr ⟨inside, visited⟩

/-- Paths to what an instruction goes on to without reading are few, and stay in the program. -/
theorem Program.Closed.free_paths (closed : program.Closed) {inst : Nat} {next : List Path}
    (free : next.map Path.inst = (program.code.getD inst .accept).freeTargets place)
    : next.length ≤ 2 ∧ ∀ path ∈ next, path.inst < program.code.size := by
  constructor
  · rw [← List.length_map, free]
    exact Inst.length_freeTargets_le _
  · intro path member
    have target : path.inst ∈ (program.code.getD inst .accept).freeTargets place :=
      free ▸ List.mem_map_of_mem member
    exact closed.targets _ _ (Inst.mem_targets_of_free target)

/-- Following a path that has come to a new instruction puts what this goes on to without reading in
front of the other paths, and keeps the path if it waits there.
-/
theorem follow_unseen (fuel : Nat) (paths : List Path)
    (unseen : front.visited.getD path.inst true = false)
    : ∃ next kept,
        follow program place (fuel + 1) (path :: paths) front
          = follow program place fuel (next ++ paths) (front.visit path kept)
        ∧ next.map Path.inst = (program.code.getD path.inst .accept).freeTargets place
        ∧ ((program.code.getD path.inst .accept).Waits → path ∈ kept)
        ∧ ∀ other ∈ front.paths, other ∈ kept := by
  rw [follow, unseen]
  cases program.code.getD path.inst .accept with
  | accept | chars =>
      refine ⟨[], path :: front.paths, rfl, rfl, fun _ => List.mem_cons_self, ?_⟩
      exact fun other member => List.mem_cons_of_mem _ member
  | look look next =>
      by_cases holds : look.holds place = true
      · refine ⟨[⟨next, path.slots⟩], front.paths, ?_, ?_, False.elim, fun _ => id⟩
        · simp [holds, Front.visit]
        · simp [holds, Inst.freeTargets]
      · refine ⟨[], front.paths, ?_, ?_, False.elim, fun _ => id⟩
        · simp [holds, Front.visit]
        · simp [holds, Inst.freeTargets]
  | note slot next =>
      exact ⟨[⟨next, path.slots.set slot (some place.index)⟩], front.paths, rfl, rfl, False.elim,
        fun _ => id⟩
  | branch preferred other =>
      exact ⟨[⟨preferred, path.slots⟩, ⟨other, path.slots⟩], front.paths, rfl, rfl, False.elim,
        fun _ => id⟩

namespace Front.Settled

variable {pending : List Nat}

/-- A pending instruction that has been come to needs no attention. -/
theorem skip {inst : Nat} (settled : front.Settled program place (inst :: pending))
    (seen : front.Seen inst)
    : front.Settled program place pending := by
  refine ⟨settled.size, ?_, settled.keeps⟩
  intro other otherSeen next free
  rcases settled.follows other otherSeen next free with nextSeen | waiting
  · exact .inl nextSeen
  · rcases List.mem_cons.mp waiting with same | later
    · exact .inl (same ▸ seen)
    · exact .inr later

/-- A pending instruction is come to, and what it goes on to becomes pending. -/
theorem visit (settled : front.Settled program place (path.inst :: pending))
    (inside : path.inst < program.code.size) {kept : List Path}
    (own : (program.code.getD path.inst .accept).Waits → path ∈ kept)
    (others : ∀ other ∈ front.paths, other ∈ kept)
    : (front.visit path kept).Settled program place
        ((program.code.getD path.inst .accept).freeTargets place ++ pending) := by
  have seen := Front.seen_visit (settled.size ▸ inside) kept
  refine ⟨Array.size_setIfInBounds.trans settled.size, ?_, ?_⟩
  · intro inst instSeen next free
    rcases (seen inst).mp instSeen with same | before
    · exact .inr (List.mem_append_left _ (same ▸ free))
    · rcases settled.follows inst before next free with nextSeen | waiting
      · exact .inl ((seen next).mpr (.inr nextSeen))
      · rcases List.mem_cons.mp waiting with same | later
        · exact .inl ((seen next).mpr (.inl same))
        · exact .inr (List.mem_append_right _ later)
  · intro inst instSeen waits
    rcases (seen inst).mp instSeen with same | before
    · exact ⟨path, own (same ▸ waits), same.symm⟩
    · obtain ⟨other, member, at_inst⟩ := settled.keeps inst before waits
      exact ⟨other, others other member, at_inst⟩

/-- Following all pending paths leaves nothing pending, and comes to each of them. Witness:
induction on the bound; each instruction is come to once and adds at most two pending paths, so
the bound lasts.
-/
theorem follow (closed : program.Closed) {fuel : Nat} {paths : List Path}
    (settled : front.Settled program place (paths.map Path.inst))
    (inside : ∀ path ∈ paths, path.inst < program.code.size)
    (budget : paths.length + 2 * front.unseen ≤ fuel)
    : (Regex.follow program place fuel paths front).Settled program place []
      ∧ front.GrowsTo (Regex.follow program place fuel paths front)
      ∧ ∀ path ∈ paths, (Regex.follow program place fuel paths front).Seen path.inst := by
  induction fuel generalizing paths front with
  | zero =>
      have none : paths = [] := List.length_eq_zero_iff.mp (by omega)
      subst none
      exact ⟨settled, fun _ => id, nofun⟩
  | succ fuel ih =>
      cases paths with
      | nil => exact ⟨settled, fun _ => id, nofun⟩
      | cons path paths =>
          obtain ⟨pathInside, rest⟩ := List.forall_mem_cons.mp inside
          have bound : path.inst < front.visited.size := settled.size ▸ pathInside
          rw [List.length_cons] at budget
          cases visited : front.visited.getD path.inst true with
          | true =>
              have seen := Front.seen_of_visited bound visited
              rw [Regex.follow, visited, if_pos rfl]
              obtain ⟨done, grows, come⟩ := ih (settled.skip seen) rest (by omega)
              exact ⟨done, grows, List.forall_mem_cons.mpr ⟨grows _ seen, come⟩⟩
          | false =>
              obtain ⟨next, kept, goesOn, free, own, others⟩ := follow_unseen fuel paths visited
              obtain ⟨few, nextInside⟩ := closed.free_paths free
              have visits := settled.visit pathInside own others
              rw [← free, ← List.map_append] at visits
              have allInside := List.forall_mem_append.mpr ⟨nextInside, rest⟩
              have counted := Front.unseen_visit bound visited kept
              have lasts : (next ++ paths).length + 2 * (front.visit path kept).unseen ≤ fuel := by
                rw [List.length_append]
                omega
              rw [goesOn]
              obtain ⟨done, grows, come⟩ := ih visits allInside lasts
              have seen := Front.seen_visit bound kept
              refine ⟨done, fun inst before => grows inst ((seen inst).mpr (.inr before)), ?_⟩
              have own := grows path.inst ((seen path.inst).mpr (.inl rfl))
              exact List.forall_mem_cons.mpr ⟨own, (List.forall_mem_append.mp come).2⟩

/-- Adding a path comes to its instruction, and to all that follows without reading. -/
theorem add (closed : program.Closed) (settled : front.Settled program place [])
    (inside : path.inst < program.code.size)
    : (front.add program place path).Settled program place []
      ∧ front.GrowsTo (front.add program place path)
      ∧ (front.add program place path).Seen path.inst := by
  have waiting : front.Settled program place ([path].map Path.inst) := by
    refine ⟨settled.size, ?_, settled.keeps⟩
    intro inst seen next free
    exact .inl ((settled.follows inst seen next free).resolve_right List.not_mem_nil)
  have few : front.unseen ≤ program.code.size := settled.size ▸ Array.count_le_size
  have enough : [path].length + 2 * front.unseen ≤ 2 * program.code.size + 2 := by
    rw [List.length_singleton]
    omega
  obtain ⟨done, grows, come⟩ :=
    waiting.follow closed (fun other member => List.mem_singleton.mp member ▸ inside) enough
  exact ⟨done, grows, come path (List.mem_singleton_self path)⟩

end Front.Settled

/-- Nothing has been come to in the empty front. -/
theorem Front.settled_empty (program : Program) (place : Place)
    : (Front.empty program).Settled program place [] := by
  have unseen (inst : Nat) : ¬(Front.empty program).Seen inst := by
    intro seen
    obtain ⟨_, wrong⟩ := Array.getElem?_eq_some_iff.mp seen
    simp [Front.empty] at wrong
  exact ⟨Array.size_replicate, fun inst seen => absurd seen (unseen inst),
    fun inst seen => absurd seen (unseen inst)⟩

-----------------------------------------------------------------------------------------
-- Advancing over a character gives up no path before one is accepted
-----------------------------------------------------------------------------------------

/-- The path can read the character, and then goes on to the instruction. -/
def Reads (program : Program) (c : Option Char) (path : Path) (next : Nat) : Prop :=
  ∃ ranges char,
    program.code.getD path.inst .accept = .chars ranges next
    ∧ c = some char
    ∧ ranges.contains char.toNat = true

/-- One path is accepted, or the others are advanced after it with a front that has come to
everything that it goes on to by reading.
-/
theorem advance_cons (closed : program.Closed) (c : Option Char) (path : Path) (paths : List Path)
    (settled : front.Settled program place [])
    : (∃ slots, (advance program c place (path :: paths) front).2 = some slots)
      ∨ ∃ grown,
          advance program c place (path :: paths) front = advance program c place paths grown
          ∧ grown.Settled program place []
          ∧ front.GrowsTo grown
          ∧ program.code.getD path.inst .accept ≠ .accept
          ∧ ∀ next, Reads program c path next → grown.Seen next := by
  have stays (different : ∀ ranges next, program.code.getD path.inst .accept ≠ .chars ranges next)
      : ∀ next, Reads program c path next → front.Seen next := by
    intro next reads
    obtain ⟨ranges, _, inst, _⟩ := reads
    exact absurd inst (different ranges next)
  cases inst : program.code.getD path.inst .accept with
  | accept => exact .inl ⟨path.slots, by simp [advance, inst]⟩
  | look | note | branch =>
      refine .inr ⟨front, ?_, settled, fun _ => id, by simp, stays (by simp [inst])⟩
      simp [advance, inst]
  | chars ranges next =>
      by_cases reads : ∃ char, c = some char ∧ ranges.contains char.toNat = true
      · obtain ⟨char, rfl, member⟩ := reads
        let added : Path := ⟨next, path.slots⟩
        have bound : added.inst < program.code.size :=
          closed.targets path.inst next (by simp [inst, Inst.targets])
        obtain ⟨done, grows, come⟩ := settled.add closed bound
        refine .inr ⟨front.add program place added, ?_, done, grows, by simp, ?_⟩
        · simp [advance, inst, member, added]
        · intro other reads
          obtain ⟨ranges', _, inst', _⟩ := reads
          cases inst.symm.trans inst'
          exact come
      · refine .inr ⟨front, ?_, settled, fun _ => id, by simp, ?_⟩
        · cases c with
          | none => simp [advance, inst]
          | some char =>
              have outside : ¬ranges.contains char.toNat = true :=
                fun member => reads ⟨char, rfl, member⟩
              simp [advance, inst, outside]
        · intro other readsOther
          obtain ⟨ranges', char, inst', some, member⟩ := readsOther
          cases inst.symm.trans inst'
          exact absurd ⟨char, some, member⟩ reads

/-- If no path is accepted, advancing comes to everything that a path goes on to by reading, by
induction on the paths.
-/
theorem advance_settled (closed : program.Closed) {c : Option Char} {paths : List Path}
    (settled : front.Settled program place [])
    (missed : (advance program c place paths front).2 = none)
    : (advance program c place paths front).1.Settled program place []
      ∧ front.GrowsTo (advance program c place paths front).1
      ∧ ∀ path ∈ paths,
          program.code.getD path.inst .accept ≠ .accept
          ∧ ∀ next,
              Reads program c path next
              → (advance program c place paths front).1.Seen next := by
  induction paths generalizing front with
  | nil => exact ⟨settled, fun _ => id, nofun⟩
  | cons path paths ih =>
      rcases advance_cons closed c path paths settled with accepted | others
      · obtain ⟨slots, found⟩ := accepted
        cases missed.symm.trans found
      · obtain ⟨grown, same, settledGrown, grows, notAccept, come⟩ := others
        rw [same] at missed ⊢
        obtain ⟨done, further, rest⟩ := ih settledGrown missed
        refine ⟨done, fun inst seen => further inst (grows inst seen), ?_⟩
        refine List.forall_mem_cons.mpr ⟨⟨notAccept, ?_⟩, rest⟩
        exact fun next reads => further next (come next reads)

-----------------------------------------------------------------------------------------
-- A search that finds nothing has followed every path
-----------------------------------------------------------------------------------------

variable {start : Slots} {text : List Char} {index : Nat}

/-- Once something has been found, the search finds something. -/
theorem searchFrom_ne_none {slots : Slots} {rest : List Char}
    : searchFrom program start (some slots) front place rest ≠ none := by
  induction rest generalizing slots front place with
  | nil => simp [searchFrom]
  | cons c rest ih =>
      intro missed
      rw [searchFrom] at missed
      dsimp only at missed
      generalize advance program (some c) _ _ _ = outcome at missed
      obtain ⟨advanced, arrived⟩ := outcome
      cases arrived with
      | none =>
          simp only [Option.none_or, Option.isSome_some, Bool.true_and] at missed
          split at missed
          case isTrue => cases missed
          case isFalse => exact ih missed
      | some later =>
          simp only [Option.some_or, Option.isSome_some, Bool.true_and] at missed
          split at missed
          case isTrue => cases missed
          case isFalse => exact ih missed

/-- The front has come to every instruction that a path goes on to by reading the character before a
place.
-/
def Front.Carries (program : Program) (start : Slots) (text : List Char) (index : Nat)
    (front : Front)
    : Prop :=
  ∀ before path,
    Reaches program start text before path
    → before + 1 = index
    → ∀ next, Reads program text[before]? path next → front.Seen next

/-- A front that has come to the entry as well has come to the instruction of every path. Witness:
induction on the path; the steps that read nothing stay inside of a settled front.
-/
theorem Front.Settled.seen_of_reaches (settled : front.Settled program (placeAt text index) [])
    (entry : front.Seen program.entry) (carries : front.Carries program start text index)
    (reached : Reaches program start text index path)
    : front.Seen path.inst := by
  have follows {path : Path} {next : Nat} (seen : front.Seen path.inst)
      (free : next ∈ (program.code.getD path.inst .accept).freeTargets (placeAt text index))
      : front.Seen next :=
    (settled.follows path.inst seen next free).resolve_right List.not_mem_nil
  generalize at_index : index = other at reached
  induction reached with
  | enter => exact entry
  | @step before path after path' reached step ih =>
      cases step with
      | look inst holds =>
          subst at_index
          exact follows (ih rfl) (by simp [inst, Inst.freeTargets, holds])
      | note inst =>
          subst at_index
          exact follows (ih rfl) (by simp [inst, Inst.freeTargets])
      | prefer inst | avoid inst =>
          subst at_index
          exact follows (ih rfl) (by simp [inst, Inst.freeTargets])
      | read inst char member =>
          exact carries before path reached at_index.symm _ ⟨_, _, inst, char, member⟩

/-- At a place where no path is accepted, the front that is advanced carries every path on. -/
theorem advance_entered (closed : program.Closed)
    (settled : front.Settled program (placeAt text index) [])
    (carries : front.Carries program start text index) (next : Place)
    (missed
      : (advance program text[index]? next
            (front.enter program (placeAt text index) start none).paths.reverse
            (.empty program)).2
        = none)
    : let advanced :=
        (advance program text[index]? next
          (front.enter program (placeAt text index) start none).paths.reverse (.empty program)).1
      advanced.Settled program next []
      ∧ advanced.Carries program start text (index + 1)
      ∧ ∀ path,
          Reaches program start text index path
          → program.code.getD path.inst .accept ≠ .accept := by
  have entry : (⟨program.entry, start⟩ : Path).inst < program.code.size := closed.entry
  obtain ⟨entered, grows, come⟩ := settled.add closed entry
  have waits {path : Path} (reached : Reaches program start text index path)
      (waiting : (program.code.getD path.inst .accept).Waits)
      : ∃ other ∈ (front.enter program (placeAt text index) start none).paths.reverse,
          other.inst = path.inst := by
    have carriesOn : (front.add program (placeAt text index) ⟨program.entry, start⟩).Carries
        program start text index :=
      fun before path reached same next reads =>
        grows next (carries before path reached same next reads)
    have seen := entered.seen_of_reaches come carriesOn reached
    obtain ⟨other, member, same⟩ := entered.keeps path.inst seen waiting
    exact ⟨other, List.mem_reverse.mpr member, same⟩
  obtain ⟨done, _, all⟩ := advance_settled closed (Front.settled_empty program next) missed
  refine ⟨done, ?_, ?_⟩
  · intro before path reached at_index target reads
    cases at_index
    have waiting : (program.code.getD path.inst .accept).Waits := by
      obtain ⟨_, _, inst, _⟩ := reads
      rw [inst]
      trivial
    obtain ⟨other, member, same⟩ := waits reached waiting
    refine (all other member).2 target ?_
    unfold Reads
    rw [same]
    exact reads
  · intro path reached accepts
    have waiting : (program.code.getD path.inst .accept).Waits := by
      rw [accepts]
      trivial
    obtain ⟨other, member, same⟩ := waits reached waiting
    exact (all other member).1 (same ▸ accepts)

/-- Where a search finds nothing, no path is accepted at the place where it starts or later, by
induction on the text that is left.
-/
theorem searchFrom_eq_none (closed : program.Closed) {rest : List Char}
    (inside : index ≤ text.length) (remaining : text.drop index = rest)
    (settled : front.Settled program (placeAt text index) [])
    (carries : front.Carries program start text index)
    (missed : searchFrom program start none front (placeAt text index) rest = none)
    : ∀ later path,
        index ≤ later
        → Reaches program start text later path
        → program.code.getD path.inst .accept ≠ .accept := by
  induction rest generalizing index front with
  | nil =>
      have atEnd : text[index]? = none := by rw [← List.head?_drop, remaining, List.head?_nil]
      have last : text.length ≤ index := List.getElem?_eq_none_iff.mp atEnd
      have arrived := (Option.or_eq_none_iff.mp missed).1
      rw [← atEnd] at arrived
      intro later path notBefore reached
      have same : index = later := by
        have := reached.inside
        omega
      subst same
      exact (advance_entered closed settled carries _ arrived).2.2 path reached
  | cons c rest ih =>
      have char : text[index]? = some c := by rw [← List.head?_drop, remaining, List.head?_cons]
      have more : index + 1 ≤ text.length := (List.getElem?_eq_some_iff.mp char).1
      have tail : text.drop (index + 1) = rest := by
        rw [← List.tail_drop, remaining, List.tail_cons]
      have next : (⟨index + 1, some c, rest.head?⟩ : Place) = placeAt text (index + 1) := by
        simp [placeAt, char, ← tail, List.head?_drop]
      rw [searchFrom] at missed
      simp only [placeAt_index, next, Option.or_none] at missed
      have step := advance_entered closed settled carries (placeAt text (index + 1))
      rw [char] at step
      generalize advance program (some c) (placeAt text (index + 1)) _ _ = outcome at step missed
      obtain ⟨advanced, arrived⟩ := outcome
      dsimp only at missed step
      cases arrived with
      | some slots =>
          split at missed
          case isTrue => cases missed
          case isFalse => exact absurd missed searchFrom_ne_none
      | none =>
          rw [if_neg (by simp)] at missed
          obtain ⟨settledNext, carriesNext, notAccepted⟩ := step rfl
          intro later path notBefore reached
          rcases Nat.eq_or_lt_of_le notBefore with same | after
          · subst same
            exact notAccepted path reached
          · exact ih more tail settledNext carriesNext missed later path after reached

/-- A program without missing instructions finds a match in a text exactly if some path through it
is accepted.
-/
theorem find_isSome_iff_accepts {regex : LogIntake.Regex} (closed : regex.program.Closed)
    (text : List Char)
    : (regex.find text).isSome = true
      ↔ ∃ slots,
          Accepts regex.program (List.replicate (2 * regex.captures + 2) none) text slots := by
  constructor
  · intro found
    obtain ⟨found, finds⟩ := Option.isSome_iff_exists.mp found
    exact ⟨found.slots, findFrom_accepts (Nat.zero_le _) finds⟩
  · intro accepted
    obtain ⟨slots, index, path, reached, accepts, _⟩ := accepted
    rw [Option.isSome_iff_ne_none]
    intro missed
    have searched := Option.map_eq_none_iff.mp missed
    have first : (⟨0, none, (text.drop 0).head?⟩ : Place) = placeAt text 0 := by
      simp [placeAt, List.head?_eq_getElem?]
    rw [if_pos rfl, first] at searched
    have carries : (Front.empty regex.program).Carries regex.program
        (List.replicate (2 * regex.captures + 2) none) text 0 := by
      intro before path reached atStart
      cases atStart
    exact searchFrom_eq_none closed (Nat.zero_le _) rfl (Front.settled_empty _ _) carries searched
      index path (Nat.zero_le _) reached accepts

end LogIntake.Regex
