import NimiqApp.Device

/-!
# Base 32 in its buffer

`base32_encode` stores each character at once.  Whatever the size of the
buffer, the front of the memory is overwritten with as much of the padded
encoding as fits.
-/

namespace NimiqApp

open Foundation

/-- The loop over the characters as it stores them, for the given room,
returning the number of characters, what is left of the current quantum and
the memory. -/
def base32EncodeLoopInto :
    Nat → List UInt8 → BitVec 32 → Nat → Nat → Nat → List UInt8 →
      Run ε (Nat × Nat × List UInt8)
  | 0, _, _, _, quantum, count, memory => pure (count, quantum, memory)
  | room + 1, data, buffer, bitsLeft, quantum, count, memory =>
      if bitsLeft > 0 ∨ data ≠ [] then do
        let (data, buffer, bitsLeft) := base32Refill data buffer bitsLeft
        let index := base32Index buffer bitsLeft
        let memory ← writeAt memory count [base32Char index.toNat]
        base32EncodeLoopInto room data buffer (bitsLeft - 5)
          (if quantum - 1 = 0 then 8 else quantum - 1) (count + 1) memory
      else pure (count, quantum, memory)

/-- The loop that pads the last quantum as it stores, for the given room. -/
def base32PadLoopInto :
    Nat → Nat → Nat → List UInt8 → Run ε (Nat × List UInt8)
  | 0, _, count, memory => pure (count, memory)
  | room + 1, quantum, count, memory =>
      if quantum > 0 then do
        let memory ← writeAt memory count [61]
        base32PadLoopInto room (quantum - 1) (count + 1) memory
      else pure (count, memory)

/-- The characters `base32_encode` stores in the memory at `result`, and their
number. -/
def base32WriteInto (data : List UInt8) (bufSize : Nat)
    (memory : List UInt8) : Run ε (Nat × List UInt8) :=
  match data with
  | [] => pure (0, memory)
  | byte :: data => do
      let (count, quantum, memory) ← base32EncodeLoopInto bufSize data
        (byte.toBitVec.setWidth 32) 8 8 0 memory
      if quantum ≠ 8 then
        base32PadLoopInto (bufSize - count) quantum count memory
      else pure (count, memory)

/-- `base32_encode` into the memory at `result`, of which it may use
`bufSize` bytes.  An error comes with the memory it leaves. -/
def base32EncodeInto (data : List UInt8) (bufSize : Nat)
    (memory : List UInt8) : Run (ErrorCode × List UInt8) (List UInt8) := do
  Run.returnOn (data.length > 2 ^ 28) (.invalidLength, memory)
  let (count, memory) ← base32WriteInto data bufSize memory
  Run.returnOn (count ≥ bufSize) (.invalidLength, memory)
  writeAt memory count [0]

/-- A character behind the front of the memory extends the front. -/
theorem writeAt_front
    (memory front : List UInt8)
    (char : UInt8)
    (inside : front.length < memory.length) :
    (writeAt (overwrite memory 0 front) front.length [char] : Run ε _) =
      .ok (overwrite memory 0 (front ++ [char])) := by
  have written := writeAt_append (ε := ε) front (memory.drop front.length)
    [char] (by rw [List.length_drop, List.length_singleton]; omega)
  have before : overwrite memory 0 front =
      front ++ memory.drop front.length := by
    rw [overwrite, Nat.zero_add, List.take_zero, List.nil_append]
  have after : overwrite memory 0 (front ++ [char]) =
      front ++ ([char] ++ (memory.drop front.length).drop [char].length) := by
    rw [overwrite, Nat.zero_add, List.take_zero, List.nil_append,
      List.length_append, List.drop_drop, List.append_assoc]
  rw [before, after]
  exact written

/-- The loop stores the characters it returns. -/
theorem base32EncodeLoopInto_eq
    (room : Nat)
    (data : List UInt8)
    (buffer : BitVec 32)
    (bitsLeft quantum : Nat)
    (memory result : List UInt8)
    (inside : result.length + room ≤ memory.length) :
    (base32EncodeLoopInto room data buffer bitsLeft quantum result.length
        (overwrite memory 0 result) : Run ε _) =
      let (written, quantum') :=
        base32EncodeLoop room data buffer bitsLeft quantum result
      .ok (written.length, quantum', overwrite memory 0 written) := by
  induction room generalizing data buffer bitsLeft quantum result with
  | zero => rfl
  | succ room inductionHypothesis =>
      rw [base32EncodeLoopInto, base32EncodeLoop]
      by_cases pending : bitsLeft > 0 ∨ data ≠ []
      · rw [if_pos pending, if_pos pending]
        generalize base32Refill data buffer bitsLeft = refill
        obtain ⟨data', buffer', bitsLeft'⟩ := refill
        simp only
        rw [writeAt_front memory result _ (by omega), Run.bind_ok]
        have rest := inductionHypothesis data' buffer' (bitsLeft' - 5)
          (if quantum - 1 = 0 then 8 else quantum - 1)
          (result ++ [base32Char (base32Index buffer' bitsLeft').toNat])
          (by rw [List.length_append, List.length_singleton]; omega)
        rw [List.length_append] at rest
        exact rest
      · rw [if_neg pending, if_neg pending]
        rfl

/-- The padding loop stores the characters it returns. -/
theorem base32PadLoopInto_eq
    (quantum : Nat)
    (memory result : List UInt8)
    (inside : result.length + room ≤ memory.length) :
    (base32PadLoopInto room quantum result.length
        (overwrite memory 0 result) : Run ε _) =
      let written := base32PadLoop room quantum result
      .ok (written.length, overwrite memory 0 written) := by
  induction room generalizing quantum result with
  | zero => rfl
  | succ room inductionHypothesis =>
      rw [base32PadLoopInto, base32PadLoop]
      by_cases pending : quantum > 0
      · rw [if_pos pending, if_pos pending,
          writeAt_front memory result _ (by omega), Run.bind_ok]
        have rest := inductionHypothesis (quantum - 1) (result ++ [61])
          (by rw [List.length_append, List.length_singleton]; omega)
        rw [List.length_append] at rest
        exact rest
      · rw [if_neg pending, if_neg pending]
        rfl

/-- The characters are stored in the front of the memory. -/
theorem base32WriteInto_eq
    (data memory : List UInt8)
    (inside : bufSize ≤ memory.length) :
    (base32WriteInto data bufSize memory : Run ε _) =
      let written := (base32Padded data).take bufSize
      .ok (written.length, overwrite memory 0 written) := by
  rw [← base32Written_eq]
  cases data with
  | nil => rfl
  | cons byte data =>
      have loop := base32EncodeLoopInto_eq (ε := ε) bufSize data
        (byte.toBitVec.setWidth 32) 8 8 memory []
        (by rw [List.length_nil]; omega)
      have short : (base32EncodeLoop bufSize data
          (byte.toBitVec.setWidth 32) 8 8 []).1.length ≤ bufSize := by
        rw [base32EncodeLoop_eq bufSize data _ [] (show 8 < 13 by decide)
          (show 8 = 8 - 0 % 8 from rfl)]
        simp only [List.nil_append, List.length_take]
        exact Nat.min_le_left _ _
      change (base32EncodeLoopInto bufSize data (byte.toBitVec.setWidth 32) 8 8
        0 memory : Run ε _) = _ at loop
      unfold base32WriteInto base32Written
      simp only
      rw [loop]
      generalize base32EncodeLoop bufSize data (byte.toBitVec.setWidth 32) 8 8
        [] = looped at short
      obtain ⟨result, quantum⟩ := looped
      simp only [Run.bind_ok]
      by_cases full : quantum = 8
      · rw [if_neg (not_not.mpr full), if_neg (not_not.mpr full)]
        rfl
      · rw [if_pos full, if_pos full]
        exact base32PadLoopInto_eq quantum memory result
          (by simp only at short; omega)

/-- A string that is returned is stored with a terminator. -/
theorem base32EncodeInto_of_encode
    (encoded : base32Encode data bufSize = .ok text)
    (memory : List UInt8)
    (inside : bufSize ≤ memory.length) :
    base32EncodeInto data bufSize memory =
      .ok (overwrite memory 0 (text ++ [0])) := by
  unfold base32Encode at encoded
  obtain ⟨_, short, encoded⟩ := Run.bind_eq_ok.mp encoded
  obtain ⟨_, room, returned⟩ := Run.bind_eq_ok.mp encoded
  cases returned
  rw [Run.returnOn_eq_ok] at short room
  rw [base32Written_eq] at room ⊢
  unfold base32EncodeInto
  rw [Run.returnOn_of_not short, Run.bind_ok, base32WriteInto_eq _ _ inside,
    Run.bind_ok]
  simp only
  rw [Run.returnOn_of_not room, Run.bind_ok]
  exact writeAt_front _ _ _ (by omega)

/-- The number of characters for `count` bytes, without padding. -/
def base32Length (count : Nat) : Nat :=
  (8 * count + 4) / 5

/-- The number of characters for `count` bytes, in quanta of eight. -/
def base32PaddedLength (count : Nat) : Nat :=
  (base32Length count + 7) / 8 * 8

theorem base32Padded_length (data : List UInt8) :
    (base32Padded data).length = base32PaddedLength data.length := by
  unfold base32Padded base32Padding base32PaddedLength base32Length
  rw [List.length_append, List.length_replicate, base32Text_length]
  omega

/-- The groups of five bits of a byte string, the most significant bit first.
Zeros fill up the last group. -/
structure GroupsOfFive (data : List UInt8) (groups : List Nat) : Prop where
  length : groups.length = base32Length data.length
  bounded : ∀ group ∈ groups, group < 32
  bits : groups.flatMap (Positional.digits 2 5) =
    data.flatMap (fun byte => Positional.digits 2 8 byte.toNat) ++
      List.replicate (5 * base32Length data.length - 8 * data.length) 0

/-- The groups that are encoded. -/
theorem fiveBitGroups_groupsOfFive (data : List UInt8) :
    GroupsOfFive data (fiveBitGroups (8 * data.length)
      (Positional.bytesValue data)) := by
  have bounded : ∀ group ∈ fiveBitGroups (8 * data.length)
      (Positional.bytesValue data), group < 2 ^ 5 :=
    fun _ => lt_of_mem_fiveBitGroups
  refine ⟨fiveBitGroups_length _ _, bounded, ?_⟩
  have fits : Positional.bytesValue data < 2 ^ (8 * data.length) := by
    rw [Nat.pow_mul]
    exact Positional.bytesValue_lt data
  have bytes : Positional.digits 2 (8 * data.length)
      (Positional.bytesValue data) =
        data.flatMap fun byte => Positional.digits 2 8 byte.toNat := by
    have grouped := Positional.digits_value_pow (show 0 < 2 by decide)
      (show ∀ digit ∈ data.map UInt8.toNat, digit < 2 ^ 8 from
        Positional.toNat_digits_bounded data)
    rw [List.length_map, List.flatMap_map] at grouped
    exact grouped
  obtain ⟨fill, filled⟩ : ∃ fill,
      5 * ((8 * data.length + 4) / 5) = 8 * data.length + fill :=
    ⟨5 * ((8 * data.length + 4) / 5) - 8 * data.length, by omega⟩
  have zeros := Positional.digits_mul_pow_add 2 fill
    (Positional.bytesValue data) 0 (by decide)
  rw [Nat.add_zero, Positional.digits_zero_right] at zeros
  rw [← Positional.digits_value_pow (by decide) bounded,
    fiveBitGroups_length, show 2 ^ 5 = 32 from rfl, value_fiveBitGroups fits]
  unfold base32Length
  rw [filled, Nat.add_sub_cancel_left, Positional.digits_add,
    Nat.mul_div_cancel _ (Nat.two_pow_pos _), bytes, zeros]

/-- The padded encoding is that of the groups. -/
theorem base32Padded_eq (data : List UInt8) :
    ∃ groups, GroupsOfFive data groups ∧
      base32Padded data = groups.map base32Char ++ List.replicate
        (base32PaddedLength data.length - base32Length data.length) 61 := by
  refine ⟨_, fiveBitGroups_groupsOfFive data, ?_⟩
  unfold base32Padded base32Padding base32PaddedLength base32Length
  rw [base32Text_length]
  congr 2
  omega

/-- The front of a buffer is overwritten. -/
theorem overwrite_front
    (front buffer behind : List UInt8)
    (fits : front.length ≤ buffer.length) :
    overwrite (buffer ++ behind) 0 front =
      front ++ buffer.drop front.length ++ behind := by
  rw [overwrite, List.take_zero, List.nil_append, Nat.zero_add,
    List.drop_append_of_le_length fits, List.append_assoc]

section Buffer

variable {data : List UInt8} {bufSize : Nat}

/-- The buffer has room for the encoding and its terminator. -/
theorem base32EncodeInto_fits
    (short : data.length ≤ 2 ^ 28)
    (result : Bytes bufSize)
    (behind : List UInt8)
    (fits : base32PaddedLength data.length + 1 ≤ bufSize) :
    base32EncodeInto data bufSize (result.val ++ behind) =
      .ok (base32Padded data ++ [0] ++
        result.val.drop (base32PaddedLength data.length + 1) ++ behind) := by
  have size := result.property
  have length := base32Padded_length data
  have encoded := base32Encode_eq data bufSize short (by omega)
  rw [base32EncodeInto_of_encode encoded _ (by rw [List.length_append]; omega),
    overwrite_front, List.length_append, length, List.length_singleton]
  rw [List.length_append, List.length_singleton]
  omega

/-- A buffer without room for the encoding or its terminator is filled. -/
theorem base32EncodeInto_exceeds
    (short : data.length ≤ 2 ^ 28)
    (result : Bytes bufSize)
    (behind : List UInt8)
    (exceeds : bufSize < base32PaddedLength data.length + 1) :
    base32EncodeInto data bufSize (result.val ++ behind) =
      .error (.error (.invalidLength,
        (base32Padded data).take bufSize ++ behind)) := by
  have size := result.property
  have length := base32Padded_length data
  have cut : ((base32Padded data).take bufSize).length = bufSize :=
    List.length_take_of_le (by omega)
  have written := base32WriteInto_eq (ε := ErrorCode × List UInt8) data
    (result.val ++ behind)
    (show bufSize ≤ (result.val ++ behind).length by
      rw [List.length_append]; omega)
  simp only [cut] at written
  rw [overwrite_front _ _ _ (by omega), cut,
    List.drop_of_length_le (by omega), List.append_nil] at written
  unfold base32EncodeInto
  rw [Run.returnOn_of_not (by omega), Run.bind_ok, written, Run.bind_ok]
  simp only
  rw [Run.returnOn, if_pos (Nat.le_refl _)]
  rfl

/-- A byte string is encoded if there is room, and nothing is written outside
of the buffer. -/
theorem base32EncodeInto_encodes
    (short : data.length ≤ 2 ^ 28)
    (result : Bytes bufSize)
    (behind : List UInt8) :
    ((∃ stored, base32EncodeInto data bufSize (result.val ++ behind) =
        .ok stored) ↔ base32PaddedLength data.length + 1 ≤ bufSize) ∧
    (base32PaddedLength data.length + 1 ≤ bufSize →
      ∃ groups, GroupsOfFive data groups ∧
        base32EncodeInto data bufSize (result.val ++ behind) =
          .ok (groups.map base32Char ++ List.replicate
            (base32PaddedLength data.length - base32Length data.length) 61 ++
            [0] ++ result.val.drop (base32PaddedLength data.length + 1) ++
            behind)) ∧
    (bufSize < base32PaddedLength data.length + 1 →
      ∃ stored : Bytes bufSize,
        base32EncodeInto data bufSize (result.val ++ behind) =
          .error (.error (.invalidLength, stored.val ++ behind))) := by
  have length := base32Padded_length data
  refine ⟨⟨?_, ?_⟩, ?_, ?_⟩
  · rintro ⟨stored, encoded⟩
    by_contra exceeds
    rw [base32EncodeInto_exceeds short result behind (by omega)] at encoded
    cases encoded
  · intro fits
    exact ⟨_, base32EncodeInto_fits short result behind fits⟩
  · intro fits
    obtain ⟨groups, groupsOfFive, padded⟩ := base32Padded_eq data
    refine ⟨groups, groupsOfFive, ?_⟩
    rw [base32EncodeInto_fits short result behind fits, padded]
  · intro exceeds
    exact ⟨⟨(base32Padded data).take bufSize,
      List.length_take_of_le (by omega)⟩,
      base32EncodeInto_exceeds short result behind exceeds⟩

/-- Two bytes take four characters and as much padding. -/
theorem base32EncodeInto_encodes_two :
    ∃ groups, GroupsOfFive [0x4E, 0x51] groups ∧
      base32EncodeInto [0x4E, 0x51] 10 (List.replicate 10 7 ++ [1, 2]) =
        .ok (groups.map base32Char ++ List.replicate 4 61 ++ [0] ++ [7] ++
          [1, 2]) :=
  (base32EncodeInto_encodes (by decide) ⟨List.replicate 10 7, by decide⟩
    [1, 2]).2.1 (by decide)

example : base32EncodeInto [0x4E, 0x51] 10 (List.replicate 10 7 ++ [1, 2]) =
    .ok (ascii "9R8G====" ++ [0] ++ [7] ++ [1, 2]) := by
  decide

end Buffer

end NimiqApp
