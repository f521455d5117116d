import NimiqApp.Text

/-!
# Base 32

`base32_encode` shifts bytes into a 32 bit accumulator and takes five bits at
a time off its top.  What is still to be written is a function of the bits
left in the accumulator and the bytes not read yet; a refill leaves it as it
is, and writing a character takes its first group off.
-/

namespace NimiqApp

open Foundation

/-- The alphabet of Nimiq addresses. -/
def base32Alphabet : CString := ascii "0123456789ABCDEFGHJKLMNPQRSTUVXY"

/-- The character of a group of five bits. -/
def base32Char (group : Nat) : UInt8 :=
  base32Alphabet.getD group 0

/-- Make sure that there are five bits to take: the unread data, the
accumulator and `bitsLeft`. -/
def base32Refill (data : List UInt8) (buffer : BitVec 32) (bitsLeft : Nat) :
    List UInt8 × BitVec 32 × Nat :=
  if bitsLeft < 5 then
    match data with
    | byte :: data =>
        (data, (buffer <<< 8) ||| byte.toBitVec.setWidth 32, bitsLeft + 8)
    | [] =>
        let pad := 5 - bitsLeft
        ([], buffer <<< pad, bitsLeft + pad)
  else (data, buffer, bitsLeft)

/-- The index of the next character. -/
def base32Index (buffer : BitVec 32) (bitsLeft : Nat) : BitVec 32 :=
  0x1F#32 &&& buffer.sshiftRight (bitsLeft - 5)

/-- The loop over the characters, for the given room in the result, returning
the characters and what is left of the current quantum. -/
def base32EncodeLoop :
    Nat → List UInt8 → BitVec 32 → Nat → Nat → CString → CString × Nat
  | 0, _, _, _, quantum, result => (result, quantum)
  | room + 1, data, buffer, bitsLeft, quantum, result =>
      if bitsLeft > 0 ∨ data ≠ [] then
        let (data, buffer, bitsLeft) := base32Refill data buffer bitsLeft
        let index := base32Index buffer bitsLeft
        base32EncodeLoop room data buffer (bitsLeft - 5)
          (if quantum - 1 = 0 then 8 else quantum - 1)
          (result ++ [base32Char index.toNat])
      else (result, quantum)

/-- The loop that pads the last quantum, for the given room. -/
def base32PadLoop : Nat → Nat → CString → CString
  | 0, _, result => result
  | room + 1, quantum, result =>
      if quantum > 0 then base32PadLoop room (quantum - 1) (result ++ [61])
      else result

/-- The characters `base32_encode` writes into a buffer of `bufSize`
characters. -/
def base32Written (data : List UInt8) (bufSize : Nat) : CString :=
  match data with
  | [] => []
  | byte :: data =>
      let (result, quantum) := base32EncodeLoop bufSize data
        (byte.toBitVec.setWidth 32) 8 8 []
      if quantum ≠ 8 then
        base32PadLoop (bufSize - result.length) quantum result
      else result

/-- `base32_encode` into a buffer of `bufSize` characters. -/
def base32Encode (data : List UInt8) (bufSize : Nat) :
    Run ErrorCode CString := do
  Run.returnOn (data.length > 2 ^ 28) .invalidLength
  let result := base32Written data bufSize
  Run.returnOn (result.length ≥ bufSize) .invalidLength
  pure result

/-- The groups of five bits of a number of `bits` bits, the last one filled
up with zeros. -/
def fiveBitGroups (bits number : Nat) : List Nat :=
  let count := (bits + 4) / 5
  Positional.digits 32 count (number * 2 ^ (5 * count - bits))

/-- The number still to be written. -/
def pendingValue (data : List UInt8) (buffer bitsLeft : Nat) : Nat :=
  buffer % 2 ^ bitsLeft * 256 ^ data.length + Positional.bytesValue data

/-- The groups still to be written. -/
def pendingGroups (data : List UInt8) (buffer bitsLeft : Nat) : List Nat :=
  fiveBitGroups (bitsLeft + 8 * data.length)
    (pendingValue data buffer bitsLeft)

/-- Byte strings in base 32, without padding. -/
def base32Text (data : List UInt8) : CString :=
  (fiveBitGroups (8 * data.length) (Positional.bytesValue data)).map base32Char

/-- The padding that fills up the last quantum of eight characters. -/
def base32Padding (count : Nat) : CString :=
  List.replicate ((8 - count % 8) % 8) 61

/-- Nothing is left of no bits. -/
theorem fiveBitGroups_zero (number : Nat) : fiveBitGroups 0 number = [] := rfl

@[simp] theorem fiveBitGroups_length (bits number : Nat) :
    (fiveBitGroups bits number).length = (bits + 4) / 5 := by
  simp [fiveBitGroups]

theorem lt_of_mem_fiveBitGroups
    (member : group ∈ fiveBitGroups bits number) : group < 32 :=
  Positional.lt_of_mem_digits (by decide) member

/-- Fewer than five bits are filled up with zeros. -/
theorem fiveBitGroups_fill
    (positive : 0 < bits)
    (few : bits < 5) :
    fiveBitGroups 5 (number * 2 ^ (5 - bits)) = fiveBitGroups bits number := by
  unfold fiveBitGroups
  have one : (bits + 4) / 5 = 1 := by omega
  simp [one]

/-- The first group consists of the five most significant bits. -/
theorem fiveBitGroups_cons
    (groupLt : group < 32)
    (restLt : rest < 2 ^ bits) :
    fiveBitGroups (bits + 5) (group * 2 ^ bits + rest) =
      group :: fiveBitGroups bits rest := by
  have counts : (bits + 5 + 4) / 5 = (bits + 4) / 5 + 1 := by omega
  have power : 2 ^ bits * 2 ^ (5 * ((bits + 4) / 5) - bits) =
      32 ^ ((bits + 4) / 5) := by
    rw [show (32 : Nat) = 2 ^ 5 from rfl, ← Nat.pow_mul, ← Nat.pow_add]
    congr 1
    omega
  have fill : 5 * ((bits + 4) / 5 + 1) - (bits + 5) =
      5 * ((bits + 4) / 5) - bits := by omega
  have restFits : rest * 2 ^ (5 * ((bits + 4) / 5) - bits) <
      32 ^ ((bits + 4) / 5) := by
    rw [← power]
    exact Nat.mul_lt_mul_of_pos_right restLt (Nat.two_pow_pos _)
  unfold fiveBitGroups
  simp only [counts, fill]
  rw [Nat.add_mul, Nat.mul_assoc, power, Positional.digits_succ_left,
    Positional.digits_mul_pow_add _ _ _ _ (by decide),
    Nat.mul_comm group, Nat.mul_add_div (Nat.pow_pos (by decide)),
    Nat.div_eq_of_lt restFits, Nat.add_zero, Nat.mod_eq_of_lt groupLt]

/-- What is pending fits the pending bits. -/
theorem pendingValue_lt (data : List UInt8) (buffer bitsLeft : Nat) :
    pendingValue data buffer bitsLeft < 2 ^ (bitsLeft + 8 * data.length) := by
  have low : buffer % 2 ^ bitsLeft < 2 ^ bitsLeft :=
    Nat.mod_lt _ (Nat.two_pow_pos _)
  have bytes := Positional.bytesValue_lt data
  unfold pendingValue
  rw [Nat.pow_add, Nat.pow_mul, show (2 : Nat) ^ 8 = 256 from rfl]
  calc buffer % 2 ^ bitsLeft * 256 ^ data.length + Positional.bytesValue data
      < buffer % 2 ^ bitsLeft * 256 ^ data.length + 256 ^ data.length := by
        omega
    _ = (buffer % 2 ^ bitsLeft + 1) * 256 ^ data.length := by
        rw [Nat.add_mul, Nat.one_mul]
    _ ≤ 2 ^ bitsLeft * 256 ^ data.length :=
        Nat.mul_le_mul_right _ low

/-- The index of the next character is the top of the bits left. -/
theorem toNat_base32Index
    (buffer : BitVec 32)
    (enough : 5 ≤ bitsLeft)
    (bounded : bitsLeft < 13) :
    (base32Index buffer bitsLeft).toNat =
      buffer.toNat % 2 ^ bitsLeft / 2 ^ (bitsLeft - 5) := by
  have logical : base32Index buffer bitsLeft =
      0x1F#32 &&& buffer >>> (bitsLeft - 5) := by
    unfold base32Index
    ext index indexLt
    rw [BitVec.getElem_and, BitVec.getElem_and, BitVec.getElem_sshiftRight,
      BitVec.getElem_ushiftRight]
    by_cases low : index < 5
    · rw [dif_pos (by omega)]
      simp [BitVec.getLsbD_eq_getElem (show bitsLeft - 5 + index < 32 by omega)]
    · have cleared : (0x1F#32)[index] = false := by
        have all : ∀ index < 32, ¬index < 5 →
            (0x1F#32).getLsbD index = false := by decide +revert
        exact all index indexLt low
      rw [cleared, Bool.false_and, Bool.false_and]
  rw [logical, BitVec.toNat_and, BitVec.toNat_ushiftRight, Nat.and_comm]
  change buffer.toNat >>> (bitsLeft - 5) &&& (2 ^ 5 - 1) = _
  rw [Nat.and_two_pow_sub_one_eq_mod, Nat.shiftRight_eq_div_pow,
    ← Nat.mod_mul_right_div_self, ← Nat.pow_add, Nat.sub_add_cancel enough]

/-- Writing a character takes the first group off. -/
theorem pendingGroups_cons
    (enough : 5 ≤ bitsLeft)
    (bounded : bitsLeft < 13) :
    pendingGroups data buffer.toNat bitsLeft =
      (base32Index buffer bitsLeft).toNat ::
        pendingGroups data buffer.toNat (bitsLeft - 5) := by
  obtain ⟨rest, rfl⟩ : ∃ rest, bitsLeft = rest + 5 :=
    ⟨bitsLeft - 5, by omega⟩
  have index := toNat_base32Index buffer enough bounded
  rw [Nat.add_sub_cancel] at index
  have indexLt : (base32Index buffer (rest + 5)).toNat < 32 := by
    rw [index, Nat.div_lt_iff_lt_mul (Nat.two_pow_pos _), Nat.mul_comm]
    calc buffer.toNat % 2 ^ (rest + 5) < 2 ^ (rest + 5) :=
          Nat.mod_lt _ (Nat.two_pow_pos _)
      _ = 2 ^ rest * 32 := by rw [Nat.pow_add]
  have split : pendingValue data buffer.toNat (rest + 5) =
      (base32Index buffer (rest + 5)).toNat * 2 ^ (rest + 8 * data.length) +
        pendingValue data buffer.toNat rest := by
    have parts : buffer.toNat % 2 ^ (rest + 5) =
        (base32Index buffer (rest + 5)).toNat * 2 ^ rest +
          buffer.toNat % 2 ^ rest := by
      have quotient := Nat.div_add_mod (buffer.toNat % 2 ^ (rest + 5))
        (2 ^ rest)
      rw [Nat.mod_mod_of_dvd _ (Nat.pow_dvd_pow 2 (by omega)), ← index,
        Nat.mul_comm] at quotient
      exact quotient.symm
    unfold pendingValue
    rw [parts, Nat.add_mul, Nat.mul_assoc, Nat.pow_add, Nat.pow_mul,
      Nat.add_assoc]
  unfold pendingGroups
  rw [show rest + 5 + 8 * data.length = rest + 8 * data.length + 5 by omega,
    split, fiveBitGroups_cons indexLt (pendingValue_lt data _ rest),
    Nat.add_sub_cancel]

/-- Shifting a byte in leaves what is pending as it is. -/
theorem pendingValue_shiftIn
    (byte : UInt8)
    (data : List UInt8)
    (buffer : BitVec 32)
    (few : bitsLeft < 5) :
    pendingValue data
        ((buffer <<< 8) ||| byte.toBitVec.setWidth 32).toNat (bitsLeft + 8) =
      pendingValue (byte :: data) buffer.toNat bitsLeft := by
  have byteLt := byte.toNat_lt
  have joined : ((buffer <<< 8) ||| byte.toBitVec.setWidth 32).toNat %
        2 ^ (bitsLeft + 8) =
      buffer.toNat % 2 ^ bitsLeft * 256 + byte.toNat := by
    rw [BitVec.toNat_or, BitVec.toNat_shiftLeft, BitVec.toNat_setWidth,
      Nat.or_mod_two_pow, Nat.mod_mod_of_dvd _ (Nat.pow_dvd_pow 2 (by omega)),
      Nat.mod_mod_of_dvd _ (Nat.pow_dvd_pow 2 (by omega)), Nat.shiftLeft_eq,
      Nat.pow_add, Nat.mul_mod_mul_right]
    change buffer.toNat % 2 ^ bitsLeft * 2 ^ 8 |||
      byte.toNat % (2 ^ bitsLeft * 2 ^ 8) = _
    rw [Nat.mod_eq_of_lt (Nat.lt_of_lt_of_le byteLt
      (Nat.le_mul_of_pos_left _ (Nat.two_pow_pos _))), ← Nat.shiftLeft_eq,
      ← Nat.shiftLeft_add_eq_or_of_lt byteLt, Nat.shiftLeft_eq]
  have bytes : Positional.bytesValue (byte :: data) =
      byte.toNat * 256 ^ data.length + Positional.bytesValue data := by
    have front := Positional.value_append 256 [byte.toNat]
      (data.map UInt8.toNat)
    rw [List.length_map] at front
    simpa [Positional.bytesValue, Positional.value] using front
  unfold pendingValue
  rw [joined, bytes, List.length_cons, Nat.pow_succ, Nat.add_mul,
    Nat.mul_assoc, Nat.mul_comm 256, Nat.add_assoc]

/-- A refill provides five bits and leaves the pending groups as they are. -/
theorem base32Refill_spec
    (buffer : BitVec 32)
    (pending : bitsLeft > 0 ∨ data ≠ [])
    (bounded : bitsLeft < 13) :
    let (data', buffer', bitsLeft') := base32Refill data buffer bitsLeft
    5 ≤ bitsLeft' ∧ bitsLeft' < 13 ∧
      pendingGroups data' buffer'.toNat bitsLeft' =
        pendingGroups data buffer.toNat bitsLeft := by
  unfold base32Refill
  by_cases few : bitsLeft < 5
  · rw [if_pos few]
    cases data with
    | nil =>
        have positive : 0 < bitsLeft := by
          rcases pending with positive | nonempty
          · exact positive
          · exact absurd rfl nonempty
        refine ⟨by omega, by omega, ?_⟩
        have shifted : (buffer <<< (5 - bitsLeft)).toNat %
              2 ^ (bitsLeft + (5 - bitsLeft)) =
            buffer.toNat % 2 ^ bitsLeft * 2 ^ (5 - bitsLeft) := by
          rw [BitVec.toNat_shiftLeft,
            Nat.mod_mod_of_dvd _ (Nat.pow_dvd_pow 2 (by omega)),
            Nat.shiftLeft_eq, Nat.pow_add, Nat.mul_mod_mul_right]
        unfold pendingGroups pendingValue
        rw [shifted]
        simp only [List.length_nil, Nat.mul_zero, Nat.add_zero, Nat.pow_zero,
          Nat.mul_one, Positional.bytesValue, List.map_nil,
          Positional.value_nil, Nat.add_sub_cancel' (Nat.le_of_lt few)]
        exact fiveBitGroups_fill positive few
    | cons byte data =>
        refine ⟨by omega, by omega, ?_⟩
        unfold pendingGroups
        rw [pendingValue_shiftIn byte data buffer few, List.length_cons]
        congr 1
        omega
  · rw [if_neg few]
    exact ⟨by omega, bounded, rfl⟩

/-- The loop writes the pending groups, as far as there is room, and counts
the quantum. -/
theorem base32EncodeLoop_eq
    (room : Nat)
    (data : List UInt8)
    (buffer : BitVec 32)
    (result : CString)
    (bounded : bitsLeft < 13)
    (quantumEq : quantum = 8 - result.length % 8) :
    let written := result ++
      ((pendingGroups data buffer.toNat bitsLeft).map base32Char).take room
    base32EncodeLoop room data buffer bitsLeft quantum result =
      (written, 8 - written.length % 8) := by
  induction room generalizing data buffer bitsLeft quantum result with
  | zero => simp [base32EncodeLoop, quantumEq]
  | succ room inductionHypothesis =>
      rw [base32EncodeLoop]
      by_cases pending : bitsLeft > 0 ∨ data ≠ []
      · rw [if_pos pending]
        have refilled := base32Refill_spec buffer pending bounded
        generalize base32Refill data buffer bitsLeft = refill at refilled
        obtain ⟨data', buffer', bitsLeft'⟩ := refill
        obtain ⟨enough, few, groups⟩ := refilled
        rw [pendingGroups_cons enough few] at groups
        simp only
        rw [inductionHypothesis _ _ _ (by omega) _, ← groups, List.map_cons,
          List.take_succ_cons, List.append_assoc]
        · rfl
        · rw [quantumEq, List.length_append, List.length_singleton]
          split <;> omega
      · have nothing : bitsLeft = 0 ∧ data = [] := by
          simpa [Nat.pos_iff_ne_zero] using pending
        rw [if_neg pending, nothing.1, nothing.2, quantumEq]
        simp [pendingGroups, fiveBitGroups_zero]

/-- The padding loop fills the quantum, as far as there is room. -/
theorem base32PadLoop_eq (room quantum : Nat) (result : CString) :
    base32PadLoop room quantum result =
      result ++ (List.replicate quantum 61).take room := by
  induction room generalizing quantum result with
  | zero => simp [base32PadLoop]
  | succ room inductionHypothesis =>
      rw [base32PadLoop]
      cases quantum with
      | zero => simp
      | succ quantum =>
          rw [if_pos (by omega), inductionHypothesis, List.replicate_succ,
            List.take_succ_cons, List.append_assoc, Nat.add_sub_cancel]
          rfl

/-- The first byte in the accumulator and the others unread are the data. -/
theorem pendingGroups_start (byte : UInt8) (data : List UInt8) :
    (pendingGroups data (byte.toBitVec.setWidth 32).toNat 8).map base32Char =
      base32Text (byte :: data) := by
  have shifted := pendingValue_shiftIn byte data 0#32 (show 0 < 5 by decide)
  have empty : (0#32 <<< 8) ||| byte.toBitVec.setWidth 32 =
      byte.toBitVec.setWidth 32 := by simp
  rw [empty] at shifted
  unfold pendingGroups base32Text
  rw [shifted, List.length_cons]
  congr 2
  · omega
  · simp [pendingValue, Nat.mod_one]

theorem base32Text_length (data : List UInt8) :
    (base32Text data).length = (8 * data.length + 4) / 5 := by
  simp [base32Text]

/-- The encoding of byte strings, with padding. -/
def base32Padded (data : List UInt8) : CString :=
  base32Text data ++ base32Padding (base32Text data).length

/-- The padded encoding is written as far as there is room. -/
theorem base32Written_eq (data : List UInt8) (bufSize : Nat) :
    base32Written data bufSize = (base32Padded data).take bufSize := by
  cases data with
  | nil => exact List.take_nil.symm
  | cons byte data =>
      have loop := base32EncodeLoop_eq bufSize data
        (byte.toBitVec.setWidth 32) [] (show 8 < 13 by decide)
        (show 8 = 8 - 0 % 8 from rfl)
      rw [pendingGroups_start, List.nil_append] at loop
      unfold base32Written base32Padded base32Padding
      simp only [loop]
      generalize base32Text (byte :: data) = text
      rw [List.take_append]
      by_cases short : text.length ≤ bufSize
      · rw [List.take_of_length_le short]
        by_cases full : 8 - text.length % 8 = 8
        · rw [if_neg (not_not.mpr full), full]
          simp
        · rw [if_pos full, base32PadLoop_eq,
            Nat.mod_eq_of_lt (show 8 - text.length % 8 < 8 by omega)]
      · have cut : (text.take bufSize).length = bufSize :=
          List.length_take_of_le (Nat.le_of_not_le short)
        rw [cut, Nat.sub_self, Nat.sub_eq_zero_of_le (Nat.le_of_not_le short),
          base32PadLoop_eq, List.take_zero, List.take_zero, List.append_nil,
          ite_self]

/-- A buffer with room for the padded encoding and a terminator receives
it. -/
theorem base32Encode_eq
    (data : List UInt8)
    (bufSize : Nat)
    (short : data.length ≤ 2 ^ 28)
    (fits : (base32Padded data).length < bufSize) :
    base32Encode data bufSize = .ok (base32Padded data) := by
  unfold base32Encode
  simp only [base32Written_eq, List.take_of_length_le (Nat.le_of_lt fits)]
  rw [Run.returnOn_of_not (by omega), Run.bind_ok,
    Run.returnOn_of_not (by omega), Run.bind_ok]
  rfl

/-- The groups a base 32 string stands for. -/
def base32Groups (text : CString) : List Nat :=
  text.map fun char => base32Alphabet.idxOf char

/-- Reading an encoding back gives the groups of the data. -/
@[simp] theorem base32Groups_base32Text (data : List UInt8) :
    base32Groups (base32Text data) =
      fiveBitGroups (8 * data.length) (Positional.bytesValue data) := by
  have all : ∀ group < 32,
      base32Alphabet.idxOf (base32Char group) = group := by decide
  unfold base32Groups base32Text
  rw [List.map_map]
  conv_rhs => rw [← List.map_id (fiveBitGroups _ _)]
  apply List.map_congr_left
  intro group member
  exact all group (lt_of_mem_fiveBitGroups member)

/-- The groups of a number have its value, filled up with zeros. -/
theorem value_fiveBitGroups (numberLt : number < 2 ^ bits) :
    Positional.value 32 (fiveBitGroups bits number) =
      number * 2 ^ (5 * ((bits + 4) / 5) - bits) := by
  unfold fiveBitGroups
  rw [Positional.value_digits, Nat.mod_eq_of_lt]
  calc number * 2 ^ (5 * ((bits + 4) / 5) - bits)
      < 2 ^ bits * 2 ^ (5 * ((bits + 4) / 5) - bits) :=
        Nat.mul_lt_mul_of_pos_right numberLt (Nat.two_pow_pos _)
    _ = 32 ^ ((bits + 4) / 5) := by
        rw [show (32 : Nat) = 2 ^ 5 from rfl, ← Nat.pow_mul, ← Nat.pow_add]
        congr 1
        omega

/-- Byte strings of one length are determined by their encoding. -/
theorem base32Text_injective
    (lengths : left.length = right.length)
    (equal : base32Text left = base32Text right) : left = right := by
  have groups := congrArg base32Groups equal
  rw [base32Groups_base32Text, base32Groups_base32Text, lengths] at groups
  have values := congrArg (Positional.value 32) groups
  have fits : ∀ data : List UInt8,
      Positional.bytesValue data < 2 ^ (8 * data.length) := by
    intro data
    rw [Nat.pow_mul]
    exact Positional.bytesValue_lt data
  rw [value_fiveBitGroups (lengths ▸ fits left),
    value_fiveBitGroups (fits right)] at values
  exact Positional.bytesValue_injective lengths
    (Nat.eq_of_mul_eq_mul_right (Nat.two_pow_pos _) values)

/-- Base 32 strings consist of characters of the alphabet. -/
theorem mem_alphabet_of_mem_base32Text
    (member : char ∈ base32Text data) : char ∈ base32Alphabet := by
  have all : ∀ group < 32, base32Char group ∈ base32Alphabet := by decide
  obtain ⟨group, inGroups, rfl⟩ := List.mem_map.mp member
  exact all group (lt_of_mem_fiveBitGroups inGroups)

end NimiqApp
