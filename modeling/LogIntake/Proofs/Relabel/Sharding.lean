import LogIntake.Proofs.Decimal.Digits
import LogIntake.Proofs.Digest.Exactness
import LogIntake.Proofs.Relabel.Compilation
import LogIntake.Proofs.Relabel.Frames

/-! Shards. A rule that stores a shard divides by a number that has been checked not to be zero, and
what it stores depends on the source values alone: the remainder of the second half of the digest of
their text.
-/

namespace LogIntake.Relabel

/-- The number is the shard of a text: the remainder of what the second half of the digest of its
bytes denotes, the most significant byte first.
-/
def IsShard (source : String) (modulus n : Nat) : Prop :=
  ∃ digest,
    Md5.IsDigest source.toUTF8.data.toList digest
    ∧ n = Md5.highFirst ((digest.drop 8).take 8) % modulus

/-- Bytes are shifted in from the most significant one on, by induction from the last byte. -/
theorem bigEndian_eq_highFirst (bytes : List UInt8) : bigEndian bytes = Md5.highFirst bytes := by
  induction bytes using List.reverseRecOn with
  | nil => rfl
  | append_singleton bytes byte ih =>
      rw [bigEndian, List.foldl_concat, ← bigEndian, ih, Md5.highFirst, Md5.highFirst,
        List.reverse_concat, Md5.lowFirst_cons, Nat.add_comm, Nat.mul_comm]

theorem isShard_iff {source : String} {modulus n : Nat}
    : IsShard source modulus n ↔ n = shard source modulus := by
  have half : (((Md5.digest source.toUTF8.data.toList).drop 8).take 8)
      = (Md5.digest source.toUTF8.data.toList).drop 8 :=
    List.take_of_length_le (by rw [List.length_drop, Md5.length_digest])
  rw [shard, bigEndian_eq_highFirst, Text.Utf8.encode_eq_toUTF8]
  constructor
  · intro defined
    obtain ⟨digest, computed, rfl⟩ := defined
    rw [Md5.isDigest_iff.mp computed, half]
  · intro same
    exact ⟨_, Md5.isDigest_digest _, by rw [same, half]⟩

/-- The check of a rule for shards asks for a target and for a number that can be divided by. -/
theorem Rule.fault?_eq_none_iff_of_hashMod {rule : Rule} (hashes : rule.action = .hashMod)
    : rule.fault? = none ↔ rule.targetLabel ≠ "" ∧ 0 < rule.modulus := by
  have needs : rule.action.needsTarget = true := by rw [hashes]; rfl
  have target : rule.targetFault? = none := by rw [targetFault?, hashes]
  have field : rule.fieldFault? = none ↔ 0 < rule.modulus := by
    simp [fieldFault?, hashes, Nat.pos_iff_ne_zero]
  rw [← field, fault?, needs, target, Bool.true_and, Option.none_or]
  split
  case isTrue empty => simp [String.isEmpty_iff.mp empty]
  case isFalse named => simp [mt String.isEmpty_iff.mpr named]

/-- A rule for shards keeps the record and gives its target the shard of the source values. -/
theorem CompiledRule.exists_of_hashMod {own : CompiledRule} (hashes : own.rule.action = .hashMod)
    (labels : LabelSet)
    : ∃ kept,
        own.apply labels = some kept
        ∧ kept.get? own.rule.targetLabel
          = some (toString (shard (own.rule.sourceValue labels) own.rule.modulus))
        ∧ labels.AgreeOutside (· = own.rule.targetLabel) kept := by
  refine ⟨_, by rw [apply, hashes], by simp, ?_⟩
  exact (labels.writtenAt_set _ _).others

/-- A compiled rule for shards has a modulus to divide by, and no other modulus than zero keeps it
from compiling. Whatever the labels, it keeps the record and gives its target the decimal text of
the shard of its source values, where absent labels count as empty; the other labels stay as they
are. Sets that agree on the source labels get the same shard.
-/
theorem hashMod_shards_exactly {rules : List Rule} {compiled : Rules}
    (accepted : Rules.compile rules = .ok compiled) {own : CompiledRule} (member : own ∈ compiled)
    (hashes : own.rule.action = .hashMod)
    : let valueIn (labels : LabelSet) (name : String) := (labels.get? name).getD ""
      0 < own.rule.modulus
      ∧ (∀ index modulus,
          (∃ again,
            CompiledRule.compile index { own.rule with modulus := modulus } = .ok again)
          ↔ 0 < modulus)
      ∧ (∀ labels,
          let source := own.rule.separator.intercalate (own.rule.sourceLabels.map (valueIn labels))
          ∃ k text kept,
            (∀ n, IsShard source own.rule.modulus n ↔ n = k)
            ∧ k < own.rule.modulus
            ∧ Decimal.IsDecimal text k
            ∧ own.apply labels = some kept
            ∧ kept.get? own.rule.targetLabel = some text
            ∧ labels.AgreeOutside (· = own.rule.targetLabel) kept)
      ∧ ∀ first second,
          (∀ name ∈ own.rule.sourceLabels, valueIn first name = valueIn second name)
          → ∃ text left right,
              own.apply first = some left
              ∧ own.apply second = some right
              ∧ left.get? own.rule.targetLabel = some text
              ∧ right.get? own.rule.targetLabel = some text := by
  intro valueIn
  obtain ⟨_, compiles⟩ := Rules.compile_of_mem accepted member
  obtain ⟨sound, pattern, _⟩ := CompiledRule.compile_eq_ok_iff.mp compiles
  obtain ⟨named, positive⟩ := (Rule.fault?_eq_none_iff_of_hashMod hashes).mp sound
  refine ⟨positive, ?_, ?_, ?_⟩
  · intro index modulus
    let other : Rule := { own.rule with modulus := modulus }
    have fault : other.fault? = none ↔ other.targetLabel ≠ "" ∧ 0 < modulus :=
      Rule.fault?_eq_none_iff_of_hashMod hashes
    constructor
    · intro compiles
      obtain ⟨again, compiles⟩ := compiles
      exact (fault.mp (CompiledRule.compile_eq_ok_iff.mp compiles).1).2
    · intro divisor
      have accepts := fault.mpr ⟨named, divisor⟩
      exact ⟨⟨other, own.regex⟩, CompiledRule.compile_eq_ok_iff.mpr ⟨accepts, pattern, rfl⟩⟩
  · intro labels source
    obtain ⟨kept, applied, written, others⟩ := CompiledRule.exists_of_hashMod hashes labels
    exact ⟨_, _, kept, fun n => isShard_iff, Nat.mod_lt _ positive, Decimal.isDecimal_toString _,
      applied, written, others⟩
  · intro first second same
    obtain ⟨left, leftApplied, leftWritten, _⟩ := CompiledRule.exists_of_hashMod hashes first
    obtain ⟨right, rightApplied, rightWritten, _⟩ := CompiledRule.exists_of_hashMod hashes second
    have sources : own.rule.sourceValue second = own.rule.sourceValue first :=
      congrArg own.rule.separator.intercalate
        (List.map_congr_left fun name member => (same name member).symm)
    rw [sources] at rightWritten
    exact ⟨_, left, right, leftApplied, rightApplied, leftWritten, rightWritten⟩

/-- A missing host counts as an empty one, whatever the zone. The digest of no bytes is well known.
-/
theorem hashMod_shards_exactly_missing_host
    : let rule : Rule :=
        {
          Rule.default with
          sourceLabels := ["host"]
          modulus := 2 ^ 64 - 1
          targetLabel := "shard"
          action := .hashMod
        }
      let labels := LabelSet.ofList [("zone", "b")]
      ∃ compiled own kept,
        Rules.compile [rule] = .ok compiled
        ∧ own ∈ compiled
        ∧ own.rule.action = .hashMod
        ∧ own.apply labels = some kept
        ∧ kept.toList = [("shard", "16825458760271544958"), ("zone", "b")]
        ∧ IsShard "" (2 ^ 64 - 1) 0xE9800998ECF8427E
        ∧ Decimal.IsDecimal "16825458760271544958" 0xE9800998ECF8427E := by
  intro rule labels
  have stored
      : (Rules.compile [rule]).toOption.any
          (fun compiled => compiled.any fun own =>
            own.rule = rule
            && (own.apply labels).any
              fun kept => kept.toList = [("shard", "16825458760271544958"), ("zone", "b")])
        = true := by
    decide +kernel
  obtain ⟨compiled, accepted, holds⟩ := any_toOption_iff.mp stored
  obtain ⟨own, member, holds⟩ := List.any_eq_true.mp holds
  obtain ⟨same, holds⟩ := Bool.and_eq_true_iff.mp holds
  obtain ⟨kept, applied, entries⟩ := (Option.any_eq_true _ _).mp holds
  have same : own.rule = rule := of_decide_eq_true same
  have entries := of_decide_eq_true entries
  have hashes : own.rule.action = .hashMod := by rw [same]
  obtain ⟨_, _, shards, _⟩ := hashMod_shards_exactly accepted member hashes
  obtain ⟨k, text, left, defined, _, decimal, again, written, _⟩ := shards labels
  obtain rfl : kept = left := Option.some.inj (applied.symm.trans again)
  rw [same] at defined written
  have found : kept.get? "shard" = some "16825458760271544958" :=
    LabelSet.mem_toList_iff.mp (by rw [entries]; exact List.mem_cons_self)
  obtain rfl : "16825458760271544958" = text := Option.some.inj (found.symm.trans written)
  obtain rfl : 0xE9800998ECF8427E = k := decimal.value
  exact ⟨compiled, own, kept, accepted, member, hashes, applied, entries, (defined _).mpr rfl,
    decimal⟩

end LogIntake.Relabel
