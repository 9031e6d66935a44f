import LogIntake.Toml.Printer
import LogIntake.Proofs.Outcome
import Mathlib.Data.List.TakeWhile
import Mathlib.Order.Basic
import Mathlib.Tactic.IntervalCases

/-! Texts in quotes, read as they are written. What stands between quotes of any kind is a row of
characters, each as itself or as an escape; the readers of all four kinds go through such a row, and
the writer leaves one for every text.
-/

namespace LogIntake.Toml

-----------------------------------------------------------------------------------------
-- Characters between quotes
-----------------------------------------------------------------------------------------

/-- The length of the run of a character at the front. -/
def runLength (mark : Char) (source : List Char) : Nat :=
  (source.takeWhile (· = mark)).length

/-- The greatest number of quotes in a row that are no closing quotes. -/
def quoteLimit (hasLines : Bool) : Nat :=
  if hasLines then 2 else 0

/-- What stands behind the backslash of an escape, which hides no break. -/
structure IsEscapeOf (c : Char) (code : List Char) : Prop where
  read : ∀ rest, takeEscape (code ++ rest) = .ok (c, rest)
  noBreak : ∀ rest, afterHiddenBreak? (code ++ rest) = none

/-- Characters as they stand between quotes: as themselves where the quotes admit it and no more of
them are quotes in a row than the limit says, or as escapes if there are escapes.
-/
inductive Spells (escapes hasLines : Bool) (quote : Char) : List Char → List Char → Prop
  | done : Spells escapes hasLines quote [] []
  | plain {c chars inner} (noEscape : escapes = true → c ≠ '\\')
    (visible : isControl c = false ∨ hasLines = true ∧ c = '\n')
    (short : runLength quote (c :: inner) ≤ quoteLimit hasLines)
    (rest : Spells escapes hasLines quote chars inner)
    : Spells escapes hasLines quote (c :: chars) (c :: inner)
  | escaped {c code chars inner} (allowed : escapes = true) (escape : IsEscapeOf c code)
    (rest : Spells escapes hasLines quote chars inner)
    : Spells escapes hasLines quote (c :: chars) ('\\' :: (code ++ inner))

variable {escapes hasLines : Bool} {quote : Char} {chars inner : List Char}

theorem runLength_cons_self (mark : Char) (source : List Char)
    : runLength mark (mark :: source) = runLength mark source + 1 := by
  simp [runLength]

theorem runLength_cons_ne {mark c : Char} (different : c ≠ mark) (source : List Char)
    : runLength mark (c :: source) = 0 := by
  simp [runLength, different]

/-- Text on one line holds no closing quote of its own. -/
theorem ne_of_runLength_le_zero {c : Char} {source : List Char}
    (short : runLength quote (c :: source) ≤ quoteLimit false)
    : c ≠ quote := by
  rintro rfl
  rw [runLength_cons_self] at short
  exact absurd short (Nat.not_succ_le_zero _)

/-- Basic strings are read up to the closing quote, by induction on the characters. -/
theorem takeBasic_of_spells (spells : Spells true false '"' chars inner) {fuel : Nat}
    (enough : inner.length < fuel) (before rest : List Char)
    : takeBasic fuel before (inner ++ '"' :: rest)
      = .ok (String.ofList (before.reverse ++ chars), rest) := by
  induction spells generalizing fuel before with
  | done =>
      obtain ⟨fuel, rfl⟩ := Nat.exists_eq_add_of_lt enough
      simp [takeBasic]
  | @plain c chars inner noEscape visible short _ ih =>
      obtain ⟨fuel, rfl⟩ : ∃ less, fuel = less + 1 := Nat.exists_eq_succ_of_ne_zero (by omega)
      have noQuote : c ≠ '"' := ne_of_runLength_le_zero short
      have noControl : isControl c = false := by simpa using visible
      have fits : inner.length < fuel := by simpa using enough
      have step := ih fits (c :: before)
      simpa [takeBasic, noQuote, noEscape rfl, noControl] using step
  | @escaped c code chars inner _ escape _ ih =>
      obtain ⟨fuel, rfl⟩ : ∃ less, fuel = less + 1 := Nat.exists_eq_succ_of_ne_zero (by omega)
      have fits : inner.length < fuel := by
        simp only [List.length_cons, List.length_append] at enough
        omega
      have step := ih fits (c :: before)
      simpa [takeBasic, escape.read] using step

/-- Literal strings are read up to the closing quote. -/
theorem takeLiteral_of_spells (spells : Spells false false '\'' chars inner)
    (before rest : List Char)
    : takeLiteral before (inner ++ '\'' :: rest)
      = .ok (String.ofList (before.reverse ++ chars), rest) := by
  induction spells generalizing before with
  | done => simp [takeLiteral]
  | @plain c chars inner _ visible short _ ih =>
      have noQuote : c ≠ '\'' := ne_of_runLength_le_zero short
      have noControl : isControl c = false := by simpa using visible
      simpa [takeLiteral, noQuote, noControl] using ih (c :: before)
  | escaped allowed _ _ _ => cases allowed

/-- Quotes that belong to the text directly before the closing ones are read with them. -/
theorem takeClosing?_of_all_quotes {rest : List Char} {count : Nat} (few : count ≤ 2)
    (ends : rest.head? ≠ some quote)
    : takeClosing? quote (List.replicate count quote ++ (quote :: quote :: quote :: rest))
      = some (count, rest) := by
  have stop : rest.takeWhile (· = quote) = [] := by
    cases rest with
    | nil => rfl
    | cons c rest =>
        have different : c ≠ quote := fun same => ends (congrArg some same)
        simp [different]
  have all : List.replicate count quote ++ (quote :: quote :: quote :: rest)
      = List.replicate (count + 3) quote ++ rest := by
    rw [List.replicate_append_replicate.symm, List.append_assoc]
    rfl
  have run : ((List.replicate (count + 3) quote ++ rest).takeWhile (· = quote)).length
      = count + 3 := by
    rw [List.takeWhile_append_of_pos (by simp), stop]
    simp
  have least : Nat.min (count + 3) 5 = count + 3 := Nat.min_eq_left (by omega)
  unfold takeClosing?
  rw [all, run]
  simp only [least, Nat.not_lt.mpr (Nat.le_add_left 3 count), if_false, Nat.add_sub_cancel]
  rw [List.drop_left' (by simp)]

/-- A short run of quotes with something else behind it closes nothing. -/
theorem takeClosing?_eq_none {source : List Char} (short : runLength quote source ≤ 2)
    : takeClosing? quote source = none := by
  unfold takeClosing?
  exact if_pos (Nat.lt_succ_of_le short)

/-- Where nothing but quotes is written, nothing but quotes is meant. -/
theorem Spells.eq_replicate (spells : Spells escapes hasLines quote chars inner)
    (noBackslash : quote ≠ '\\') (all : ∀ c ∈ inner, c = quote)
    : chars = List.replicate inner.length quote := by
  induction spells with
  | done => rfl
  | plain _ _ _ _ ih =>
      obtain ⟨rfl, rest⟩ := List.forall_mem_cons.mp all
      rw [ih rest, List.length_cons, List.replicate_succ]
  | escaped _ _ _ _ => exact absurd (all '\\' List.mem_cons_self).symm noBackslash

/-- A run of quotes ends within a text that holds anything else. -/
theorem runLength_append_of_not_all {source : List Char} (other : ¬∀ c ∈ source, c = quote)
    (rest : List Char)
    : runLength quote (source ++ rest) = runLength quote source := by
  induction source with
  | nil => exact absurd (fun _ h => absurd h List.not_mem_nil) other
  | cons c source ih =>
      by_cases same : c = quote
      · have inRest : ¬∀ c ∈ source, c = quote :=
          fun all => other (List.forall_mem_cons.mpr ⟨same, all⟩)
        rw [same, List.cons_append, runLength_cons_self, runLength_cons_self, ih inRest]
      · rw [List.cons_append, runLength_cons_ne same, runLength_cons_ne same]

/-- The run of a text of nothing but quotes is all of it. -/
theorem runLength_of_all {source : List Char} (all : ∀ c ∈ source, c = quote)
    : runLength quote source = source.length := by
  unfold runLength
  rw [List.takeWhile_eq_self_iff.mpr fun c member => decide_eq_true (all c member)]

theorem Spells.runLength_le (spells : Spells escapes hasLines quote chars inner)
    (noBackslash : quote ≠ '\\')
    : runLength quote inner ≤ quoteLimit hasLines := by
  cases spells with
  | done => exact Nat.zero_le _
  | plain _ _ short _ => exact short
  | escaped _ _ _ =>
      rw [runLength_cons_ne noBackslash.symm]
      exact Nat.zero_le _

/-- Strings on several lines are read up to the closing quotes, by induction on the characters.
Quotes at the end of the text are read together with the closing ones, all others one by one.
-/
theorem takeLines_of_spells (spells : Spells escapes true quote chars inner)
    (noBackslash : quote ≠ '\\') {fuel : Nat} (enough : inner.length < fuel)
    {rest : List Char} (ends : rest.head? ≠ some quote) (before : List Char)
    : takeLines escapes quote fuel before (inner ++ quote :: quote :: quote :: rest)
      = .ok (String.ofList (before.reverse ++ chars), rest) := by
  induction spells generalizing fuel before with
  | done =>
      obtain ⟨fuel, rfl⟩ : ∃ less, fuel = less + 1 := Nat.exists_eq_succ_of_ne_zero (by omega)
      have closing := takeClosing?_of_all_quotes (Nat.zero_le 2) ends
      simp only [List.replicate_zero, List.nil_append] at closing
      simp [takeLines, closing]
  | @plain c chars inner noEscape visible short tail ih =>
      obtain ⟨fuel, rfl⟩ : ∃ less, fuel = less + 1 := Nat.exists_eq_succ_of_ne_zero (by omega)
      by_cases all : ∀ other ∈ c :: inner, other = quote
      · have few : inner.length + 1 ≤ 2 := by
          rw [runLength_of_all all] at short
          exact short
        have closing := takeClosing?_of_all_quotes few ends
        have written : c :: inner = List.replicate (inner.length + 1) quote :=
          List.eq_replicate_of_mem all
        have meant : c :: chars = List.replicate (inner.length + 1) quote :=
          (Spells.plain noEscape visible short tail).eq_replicate noBackslash all
        rw [← written] at closing
        rw [List.cons_append] at closing ⊢
        simp only [takeLines, closing, meant]
      · have open' : takeClosing? quote (c :: (inner ++ quote :: quote :: quote :: rest)) = none :=
          takeClosing?_eq_none (((runLength_append_of_not_all all _).trans_le short))
        have fits : inner.length < fuel := by simpa using enough
        have step := ih fits (c :: before)
        have plainHere : ¬(escapes && decide (c = '\\')) = true := by
          cases escapes with
          | false => simp
          | true => simpa using noEscape rfl
        rw [List.cons_append]
        simp only [takeLines, open', plainHere, Bool.false_eq_true, if_false]
        rcases visible with noControl | ⟨_, rfl⟩
        · have noReturn : c ≠ '\r' := by
            rintro rfl
            exact absurd noControl (by decide)
          simpa [noControl, noReturn] using step
        · simpa using step
  | @escaped c code chars inner allowed escape _ ih =>
      obtain ⟨fuel, rfl⟩ : ∃ less, fuel = less + 1 := Nat.exists_eq_succ_of_ne_zero (by omega)
      have fits : inner.length < fuel := by
        simp only [List.length_cons, List.length_append] at enough
        omega
      have step := ih fits (c :: before)
      have noQuote : runLength quote ('\\' :: (code ++ inner ++ quote :: quote :: quote :: rest))
          = 0 := runLength_cons_ne noBackslash.symm _
      have open' := takeClosing?_eq_none (noQuote.trans_le (Nat.zero_le 2))
      rw [List.cons_append]
      simp only [takeLines, open']
      simpa [allowed, escape.read, escape.noBreak] using step

-----------------------------------------------------------------------------------------
-- What the writer leaves between quotes
-----------------------------------------------------------------------------------------

theorem isEscapeOf_quote : IsEscapeOf '"' ['"'] :=
  ⟨fun _ => rfl, fun _ => rfl⟩

/-- An escape of its own denotes the character. -/
theorem isEscapeOf_of_named {c : Char} {escape : List Char} (named : namedEscape? c = some escape)
    : ∃ code, escape = '\\' :: code ∧ IsEscapeOf c code := by
  unfold namedEscape? at named
  repeat' split at named
  all_goals
    first
    | (obtain rfl := Option.some.inj named
       subst c
       exact ⟨_, rfl, fun _ => rfl, fun _ => rfl⟩)
    | cases named

/-- The digits of a control character denote it, as the table of these characters tells. -/
theorem takeCode_codeDigits {code : Nat} (control : code < 32 ∨ code = 127) (rest : List Char)
    : takeCode 4 0 (codeDigits (Char.ofNat code) ++ rest) = .ok (Char.ofNat code, rest) := by
  rcases control with low | rfl
  · interval_cases code <;> rfl
  · rfl

/-- The escape by code point denotes the character. -/
theorem isEscapeOf_codeDigits {c : Char} (control : isControl c = true)
    : IsEscapeOf c ('u' :: codeDigits c) := by
  have low : c.toNat < 32 ∨ c.toNat = 127 := by
    unfold isControl at control
    simp only [Bool.or_eq_true, Bool.and_eq_true, decide_eq_true_eq] at control
    omega
  refine ⟨fun rest => ?_, fun _ => rfl⟩
  have read := takeCode_codeDigits low rest
  rw [Char.ofNat_toNat] at read
  exact read

/-- The writer escapes what may not stand as it is, by induction on the characters; the number of
quotes just before and the run at the front stay within the limit together.
-/
theorem escapeText_spells_from (quotes : Nat) (few : quotes ≤ quoteLimit hasLines)
    (chars : List Char)
    : let inner := escapeText hasLines (quoteLimit hasLines) quotes chars
      Spells true hasLines '"' chars inner
        ∧ quotes + runLength '"' inner ≤ quoteLimit hasLines := by
  induction chars generalizing quotes with
  | nil => exact ⟨.done, few⟩
  | cons c chars ih =>
      obtain ⟨tail, shortTail⟩ := ih 0 (Nat.zero_le _)
      rw [Nat.zero_add] at shortTail
      have escaped {code : List Char} (escape : IsEscapeOf c code)
          : Spells true hasLines '"' (c :: chars)
              ('\\' :: (code ++ escapeText hasLines (quoteLimit hasLines) 0 chars))
            ∧ quotes
                + runLength '"'
                    ('\\' :: (code ++ escapeText hasLines (quoteLimit hasLines) 0 chars))
              ≤ quoteLimit hasLines := by
        refine ⟨.escaped rfl escape tail, ?_⟩
        rw [runLength_cons_ne (by decide)]
        exact few
      have plain (noQuote : c ≠ '"') (noEscape : c ≠ '\\')
          (visible : isControl c = false ∨ hasLines = true ∧ c = '\n')
          : Spells true hasLines '"' (c :: chars)
              (c :: escapeText hasLines (quoteLimit hasLines) 0 chars)
            ∧ quotes
                + runLength '"' (c :: escapeText hasLines (quoteLimit hasLines) 0 chars)
              ≤ quoteLimit hasLines := by
        have none := runLength_cons_ne noQuote (escapeText hasLines (quoteLimit hasLines) 0 chars)
        rw [none]
        exact ⟨.plain (fun _ => noEscape) visible (none.trans_le (Nat.zero_le _)) tail, few⟩
      by_cases isQuote : c = '"'
      · subst isQuote
        by_cases fits : quotes < quoteLimit hasLines
        · obtain ⟨next, shortNext⟩ := ih (quotes + 1) fits
          have run := runLength_cons_self '"'
            (escapeText hasLines (quoteLimit hasLines) (quotes + 1) chars)
          simp only [escapeText, if_pos fits, if_true]
          exact ⟨.plain (by decide) (.inl (by decide)) (by omega) next, by omega⟩
        · simp only [escapeText, if_neg fits, if_true]
          exact escaped isEscapeOf_quote
      · by_cases isBreak : c = '\n' ∧ hasLines = true
        · obtain ⟨rfl, withLines⟩ := isBreak
          have step := plain (by decide) (by decide) (.inr ⟨withLines, rfl⟩)
          simpa [escapeText, withLines] using step
        · have notHere : ¬(decide (c = '\n') && hasLines) = true := by simpa using isBreak
          simp only [escapeText, if_neg isQuote, if_neg notHere]
          cases named : namedEscape? c with
          | some escape =>
              obtain ⟨code, rfl, escape⟩ := isEscapeOf_of_named named
              exact escaped escape
          | none =>
              by_cases control : isControl c = true
              · simp only [control, if_true]
                exact escaped (isEscapeOf_codeDigits control)
              · have noEscape : c ≠ '\\' := by
                  rintro rfl
                  cases named
                simp only [if_neg control]
                exact plain isQuote noEscape (.inl (Bool.eq_false_iff.mpr control))

theorem escapeText_spells (hasLines : Bool) (chars : List Char)
    : Spells true hasLines '"' chars (escapeText hasLines (quoteLimit hasLines) 0 chars) :=
  (escapeText_spells_from 0 (Nat.zero_le _) chars).1

/-- One step of the writer's count of runs: the run at hand and the longest one so far. -/
def countRun (mark : Char) (state : Nat × Nat) (c : Char) : Nat × Nat :=
  let current := if c = mark then state.1 + 1 else 0
  (current, Nat.max state.2 current)

/-- A run is no longer than the longest one, which is counted from left to right. -/
theorem runLength_le_of_countRun (mark : Char) (chars : List Char) {current best : Nat}
    (counted : current ≤ best)
    : current + runLength mark chars ≤ (chars.foldl (countRun mark) (current, best)).2
      ∧ best ≤ (chars.foldl (countRun mark) (current, best)).2 := by
  induction chars generalizing current best with
  | nil => exact ⟨counted, le_rfl⟩
  | cons c chars ih =>
      rw [List.foldl_cons]
      by_cases same : c = mark
      · have step : countRun mark (current, best) c = (current + 1, max best (current + 1)) := by
          simp only [countRun, if_pos same]
        obtain ⟨run, kept⟩ := ih (le_max_right best (current + 1))
        rw [step, same, runLength_cons_self]
        exact ⟨by omega, (le_max_left _ _).trans kept⟩
      · have step : countRun mark (current, best) c = (0, max best 0) := by
          simp only [countRun, if_neg same]
        obtain ⟨_, kept⟩ := ih (Nat.zero_le (max best 0))
        have grown := (le_max_left best 0).trans kept
        rw [step, runLength_cons_ne same]
        exact ⟨counted.trans grown, grown⟩

/-- A text without anything to escape and without long runs of quotes stands between quotes as it
is, by induction on the characters.
-/
theorem plain_spells_from {chars : List Char} {current best : Nat} (counted : current ≤ best)
    (visible : ∀ c ∈ chars, isControl c = false ∨ hasLines = true ∧ c = '\n')
    (short : (chars.foldl (countRun quote) (current, best)).2 ≤ quoteLimit hasLines)
    : Spells false hasLines quote chars chars := by
  induction chars generalizing current best with
  | nil => exact .done
  | cons c chars ih =>
      obtain ⟨first, rest⟩ := List.forall_mem_cons.mp visible
      obtain ⟨run, _⟩ := runLength_le_of_countRun quote (c :: chars) counted
      have counts : (countRun quote (current, best) c).1 ≤ (countRun quote (current, best) c).2 :=
        Nat.le_max_right _ _
      exact .plain nofun first (by omega) (ih counts rest short)

theorem plain_spells {chars : List Char}
    (visible : ∀ c ∈ chars, isControl c = false ∨ hasLines = true ∧ c = '\n')
    (short : longestRun quote chars ≤ quoteLimit hasLines)
    : Spells false hasLines quote chars chars :=
  plain_spells_from le_rfl visible short

/-- A text in literal quotes has no control characters, no quotes and no breaks. -/
theorem spells_of_choose_literal {chars : List Char} (chosen : Quoting.choose chars = .literal)
    : Spells false false '\'' chars chars := by
  have apart
      : (!chars.any needsEscape && decide (longestRun '\'' chars = 0) && !chars.contains '\n')
        = true := by
    dsimp only [Quoting.choose] at chosen
    split at chosen
    · cases chosen
    · split at chosen
      · assumption
      · repeat' split at chosen
        all_goals cases chosen
  simp only [Bool.and_eq_true, Bool.not_eq_true', decide_eq_true_eq, List.any_eq_false] at apart
  obtain ⟨⟨control, single⟩, noBreak⟩ := apart
  refine plain_spells (fun c member => .inl ?_) single.le
  have notBreak : c ≠ '\n' := by
    rintro rfl
    simp [member] at noBreak
  simpa [needsEscape, notBreak] using control c member

/-- A text in literal quotes on several lines has no control characters but breaks. -/
theorem spells_of_choose_literalLines {chars : List Char}
    (chosen : Quoting.choose chars = .literalLines)
    : Spells false true '\'' chars chars := by
  have apart : (!chars.any needsEscape && decide (longestRun '\'' chars ≤ 2)) = true := by
    dsimp only [Quoting.choose] at chosen
    repeat' split at chosen
    all_goals first | assumption | cases chosen
  simp only [Bool.and_eq_true, Bool.not_eq_true', decide_eq_true_eq, List.any_eq_false] at apart
  obtain ⟨control, few⟩ := apart
  refine plain_spells (fun c member => ?_) few
  have shown := control c member
  by_cases isBreak : c = '\n'
  · exact .inr ⟨rfl, isBreak⟩
  · exact .inl (by simpa [needsEscape, isBreak] using shown)

-----------------------------------------------------------------------------------------
-- Texts and keys
-----------------------------------------------------------------------------------------

/-- The text between quotes on several lines begins with a break only if the text itself does. -/
theorem Spells.afterLineBreak?_eq_none (spells : Spells escapes hasLines quote chars inner)
    (noBreak : '\n' ∉ chars) (noLineEnd : quote ≠ '\n' ∧ quote ≠ '\r') (rest : List Char)
    : afterLineBreak? (inner ++ quote :: rest) = none := by
  cases spells with
  | done =>
      rw [List.nil_append]
      unfold afterLineBreak?
      split
      next same => exact absurd (List.cons.inj same).1 noLineEnd.1
      next same => exact absurd (List.cons.inj same).1 noLineEnd.2
      next => rfl
  | @plain c chars inner _ visible _ _ =>
      have notBreak : c ≠ '\n' := fun same => noBreak (same ▸ List.mem_cons_self)
      have notReturn : c ≠ '\r' := by
        rintro rfl
        rcases visible with control | ⟨_, same⟩
        · exact absurd control (by decide)
        · cases same
      rw [List.cons_append]
      unfold afterLineBreak?
      split
      next same => exact absurd (List.cons.inj same).1 notBreak
      next same => exact absurd (List.cons.inj same).1 notReturn
      next => rfl
  | escaped _ _ _ => rfl

/-- A block is read behind its opening quotes, where the writer puts a break before a text that has
breaks.
-/
theorem takeBlock_of_spells (spells : Spells escapes true quote chars inner)
    (isQuote : quote = '"' ∨ quote = '\'') {rest : List Char} (ends : rest.head? ≠ some quote)
    : takeBlock escapes quote
        ((if chars.contains '\n' then ['\n'] else []) ++ inner
          ++ quote :: quote :: quote :: rest)
      = .ok (String.ofList chars, rest) := by
  have noBackslash : quote ≠ '\\' := by rcases isQuote with rfl | rfl <;> decide
  have noLineEnd : quote ≠ '\n' ∧ quote ≠ '\r' := by rcases isQuote with rfl | rfl <;> decide
  have source
      : (afterLineBreak?
          ((if chars.contains '\n' then ['\n'] else []) ++ inner
            ++ quote :: quote :: quote :: rest)).getD
          ((if chars.contains '\n' then ['\n'] else []) ++ inner
            ++ quote :: quote :: quote :: rest)
        = inner ++ quote :: quote :: quote :: rest := by
    by_cases hasBreak : '\n' ∈ chars
    · simp [hasBreak, afterLineBreak?]
    · have unbroken := spells.afterLineBreak?_eq_none hasBreak noLineEnd (quote :: quote :: rest)
      simp [hasBreak, unbroken]
  unfold takeBlock
  rw [source]
  exact takeLines_of_spells spells noBackslash
    (by simp only [List.length_append]; omega) ends []

/-- Text on one line and its closing quote do not begin like a block. -/
theorem Spells.ne_cons_cons (spells : Spells escapes false quote chars inner)
    (noBackslash : quote ≠ '\\') {rest : List Char} (ends : rest.head? ≠ some quote)
    (more : List Char)
    : inner ++ quote :: rest ≠ quote :: quote :: more := by
  intro same
  have short : runLength quote inner ≤ quoteLimit false := spells.runLength_le noBackslash
  cases inner with
  | nil => exact ends (congrArg List.head? (List.cons.inj same).2)
  | cons c inner => exact ne_of_runLength_le_zero short (List.cons.inj same).1

/-- A basic string in front of anything but a quote. -/
theorem takeText?_basic (spells : Spells true false '"' chars inner) {rest : List Char}
    (ends : rest.head? ≠ some '"')
    : takeText? ('"' :: (inner ++ '"' :: rest)) = some (.ok (String.ofList chars, rest)) := by
  have enough : inner.length < (inner ++ '"' :: rest).length + 1 := by
    simp only [List.length_append]
    omega
  rw [takeText?.eq_3 _ (spells.ne_cons_cons (by decide) ends),
    takeBasic_of_spells spells enough []]
  rfl

/-- A literal string in front of anything but a quote. -/
theorem takeText?_literal (spells : Spells false false '\'' chars inner) {rest : List Char}
    (ends : rest.head? ≠ some '\'')
    : takeText? ('\'' :: (inner ++ '\'' :: rest)) = some (.ok (String.ofList chars, rest)) := by
  rw [takeText?.eq_4 _ (spells.ne_cons_cons (by decide) ends), takeLiteral_of_spells spells []]
  rfl

/-- What a printed text consists of. -/
theorem toList_printText {value : String} {quoting : Quoting}
    (chosen : Quoting.choose value.toList = quoting)
    : (printText value).toList
      = quoting.delimiter
        ++ (if quoting.hasLines && value.toList.contains '\n' then ['\n'] else [])
        ++ (if quoting.hasEscapes then
              escapeText quoting.hasLines (quoteLimit quoting.hasLines) 0 value.toList
            else value.toList)
        ++ quoting.delimiter := by
  subst chosen
  simp [printText, quoteLimit]

/-- A printed text is read back, whatever quotes it is in, in front of anything but a quote. -/
theorem takeText?_printText (value : String) {rest : List Char}
    (ends : rest.head? ≠ some '"' ∧ rest.head? ≠ some '\'')
    : takeText? ((printText value).toList ++ rest) = some (.ok (value, rest)) := by
  have whole := String.ofList_toList (s := value)
  cases chosen : Quoting.choose value.toList with
  | basic =>
      have read := takeText?_basic (escapeText_spells false value.toList) ends.1
      rw [whole] at read
      simpa [toList_printText chosen, Quoting.hasEscapes, Quoting.hasLines, Quoting.delimiter]
        using read
  | literal =>
      have read := takeText?_literal (spells_of_choose_literal chosen) ends.2
      rw [whole] at read
      simpa [toList_printText chosen, Quoting.hasEscapes, Quoting.hasLines, Quoting.delimiter]
        using read
  | basicLines =>
      have read := takeBlock_of_spells (escapeText_spells true value.toList) (.inl rfl) ends.1
      rw [whole] at read
      simpa [toList_printText chosen, Quoting.hasEscapes, Quoting.hasLines, Quoting.delimiter,
        takeText?] using read
  | literalLines =>
      have read := takeBlock_of_spells (spells_of_choose_literalLines chosen) (.inr rfl) ends.2
      rw [whole] at read
      simpa [toList_printText chosen, Quoting.hasEscapes, Quoting.hasLines, Quoting.delimiter,
        takeText?] using read

/-- A bare part of a key is read up to the first character that it cannot hold. -/
theorem takeKeyPart_bare {name : List Char} (nonempty : name ≠ [])
    (bare : ∀ c ∈ name, isBareKeyChar c = true) {rest : List Char}
    (ends : ∀ c ∈ rest.head?, isBareKeyChar c = false)
    : takeKeyPart (name ++ rest) = .ok (String.ofList name, rest) := by
  have stop : rest.takeWhile isBareKeyChar = [] := by
    cases rest with
    | nil => rfl
    | cons c rest => simp [ends c rfl]
  have taken : (name ++ rest).takeWhile isBareKeyChar = name := by
    rw [List.takeWhile_append_of_pos bare, stop, List.append_nil]
  cases name with
  | nil => exact absurd rfl nonempty
  | cons first name =>
      have isBare := bare first List.mem_cons_self
      have notDouble : first ≠ '"' := by
        rintro rfl
        exact absurd isBare (by decide)
      have notSingle : first ≠ '\'' := by
        rintro rfl
        exact absurd isBare (by decide)
      unfold takeKeyPart
      split
      next same => exact absurd (List.cons.inj same).1 notDouble
      next same => exact absurd (List.cons.inj same).1 notSingle
      next =>
        simp only [taken, List.isEmpty_cons, Bool.false_eq_true, if_false, List.drop_left]

/-- A printed part of a key is read back, in front of anything but a character of a bare key. -/
theorem takeKeyPart_printKey (name : String) {rest : List Char}
    (ends : ∀ c ∈ rest.head?, isBareKeyChar c = false)
    : takeKeyPart ((printKey name).toList ++ rest) = .ok (name, rest) := by
  have whole := String.ofList_toList (s := name)
  have quoted {inner : List Char} (spells : Spells true false '"' name.toList inner)
      : takeKeyPart ('"' :: (inner ++ '"' :: rest)) = .ok (name, rest) := by
    have enough : inner.length < (inner ++ '"' :: rest).length + 1 := by
      simp only [List.length_append]
      omega
    have read := takeBasic_of_spells spells enough [] rest
    rw [List.reverse_nil, List.nil_append, whole] at read
    exact read
  unfold printKey
  split
  next bare =>
    simp only [Bool.and_eq_true, Bool.not_eq_true', List.all_eq_true] at bare
    obtain ⟨nonempty, plain⟩ := bare
    have some : name.toList ≠ [] := by simpa using nonempty
    have read := takeKeyPart_bare some plain ends
    rwa [whole] at read
  next =>
    dsimp only
    split
    next chosen =>
      have read := takeLiteral_of_spells (spells_of_choose_literal chosen) [] rest
      rw [List.reverse_nil, List.nil_append, whole] at read
      simpa [takeKeyPart] using read
    next => simpa [quoteLimit] using quoted (escapeText_spells false name.toList)

/-- A printed part of a key is not empty and starts with a character of its own. -/
theorem exists_head_printKey (name : String)
    : ∃ c more,
        (printKey name).toList = c :: more
        ∧ (isBareKeyChar c = true ∨ c = '"' ∨ c = '\'') := by
  unfold printKey
  split
  next bare =>
    simp only [Bool.and_eq_true, Bool.not_eq_true', List.all_eq_true] at bare
    obtain ⟨nonempty, plain⟩ := bare
    cases named : name.toList with
    | nil => exact absurd named (by simpa using nonempty)
    | cons c more => exact ⟨c, more, rfl, .inl (plain c (named ▸ List.mem_cons_self))⟩
  next =>
    dsimp only
    split
    next => exact ⟨_, _, by rw [String.toList_ofList]; rfl, .inr (.inr rfl)⟩
    next => exact ⟨_, _, by rw [String.toList_ofList]; rfl, .inr (.inl rfl)⟩

theorem toList_headerPath_cons_cons (name next : String) (path : List String)
    : (headerPath (name :: next :: path)).toList
      = (printKey name).toList ++ '.' :: (headerPath (next :: path)).toList := by
  simp [headerPath, String.intercalate_cons_cons]

/-- A printed key starts with no blank. -/
theorem dropWhile_isSpace_headerPath (name : String) (path : List String) (rest : List Char)
    : ((headerPath (name :: path)).toList ++ rest).dropWhile isSpace
      = (headerPath (name :: path)).toList ++ rest := by
  obtain ⟨c, more, first, own⟩ := exists_head_printKey name
  have noBlank : isSpace c = false := by
    rcases own with bare | rfl | rfl
    · refine Bool.eq_false_iff.mpr fun blank => ?_
      simp only [isSpace, Bool.or_eq_true, decide_eq_true_eq] at blank
      rcases blank with rfl | rfl <;> exact absurd bare (by decide)
    · rfl
    · rfl
  cases path with
  | nil => simp [headerPath, first, noBlank]
  | cons next path => simp [toList_headerPath_cons_cons, first, noBlank]

/-- The parts of a printed key are read back, by induction on the path, and the blanks behind them
are passed over.
-/
theorem takeKey_headerPath (name : String) (path : List String) {rest : List Char}
    (ends : ∀ c ∈ rest.head?, isBareKeyChar c = false)
    (noPoint : (rest.dropWhile isSpace).head? ≠ some '.') {fuel : Nat}
    (enough : path.length < fuel)
    : takeKey fuel ((headerPath (name :: path)).toList ++ rest)
      = .ok (name :: path, rest.dropWhile isSpace) := by
  induction path generalizing name fuel with
  | nil =>
      obtain ⟨fuel, rfl⟩ : ∃ less, fuel = less + 1 := Nat.exists_eq_succ_of_ne_zero (by omega)
      have single : headerPath [name] = printKey name := by simp [headerPath]
      rw [single]
      refine bind_eq_ok_iff.mpr ⟨_, takeKeyPart_printKey name ends, ?_⟩
      dsimp only
      split
      next same => exact absurd (congrArg List.head? same) noPoint
      next => rfl
  | cons next path ih =>
      obtain ⟨fuel, rfl⟩ : ∃ less, fuel = less + 1 := Nat.exists_eq_succ_of_ne_zero (by omega)
      have stop : ∀ c ∈ ('.' :: ((headerPath (next :: path)).toList ++ rest)).head?,
          isBareKeyChar c = false := by
        rintro c ⟨⟩
        rfl
      have fewer : path.length < fuel := by simpa using enough
      have others := ih next fewer
      rw [toList_headerPath_cons_cons, List.append_assoc, List.cons_append]
      refine bind_eq_ok_iff.mpr ⟨_, takeKeyPart_printKey name stop, ?_⟩
      have point : isSpace '.' = false := rfl
      simp only [List.dropWhile_cons, point, Bool.false_eq_true, if_false,
        dropWhile_isSpace_headerPath]
      exact bind_eq_ok_iff.mpr ⟨_, others, rfl⟩

/-- A printed key has a character at least for each of its parts. -/
theorem length_lt_of_headerPath (name : String) (path : List String) (rest : List Char)
    : path.length < ((headerPath (name :: path)).toList ++ rest).length := by
  induction path generalizing name with
  | nil =>
      obtain ⟨c, more, first, _⟩ := exists_head_printKey name
      simp [headerPath, first]
  | cons next path ih =>
      have shorter := ih next
      rw [toList_headerPath_cons_cons]
      simp only [List.length_append, List.length_cons] at shorter ⊢
      omega

end LogIntake.Toml
