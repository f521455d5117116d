import NimiqApp.BufferUtils

/-!
# Encodings of the values read from a buffer

Every reader of fixed form accepts exactly the encodings of its values, at
any place of the memory and whatever follows.  `Reads` states this once;
readers composed of two readers inherit it.
-/

namespace NimiqApp

/-- The reader accepts exactly the encodings of the valid values, wherever
they are and whatever follows them. -/
structure Reads (valid : α → Prop)
    (read : List UInt8 → Slice → Run Unit (α × Slice))
    (encode : α → List UInt8) : Prop where
  accept : ∀ {memory slice value rest}, valid value →
    Covers memory slice (encode value ++ rest) →
    read memory slice = .ok (value, slice.advance (encode value).length)
  reject : ∀ {memory slice bytes}, Covers memory slice bytes →
    (∀ value rest, valid value → bytes ≠ encode value ++ rest) →
    read memory slice = .error (.error ())

namespace Reads

variable {valid : α → Prop}
  {read : List UInt8 → Slice → Run Unit (α × Slice)}
  {encode : α → List UInt8}

/-- An encoding in front of the buffer is read, and the rest remains. -/
theorem accept_next
    (reads : Reads valid read encode)
    (isValid : valid value)
    (covers : Covers memory slice (encode value ++ rest)) :
    ∃ next, read memory slice = .ok (value, next) ∧ Covers memory next rest :=
  ⟨_, reads.accept isValid covers, covers.advance⟩

/-- What was read is the encoding in front of the buffer. -/
theorem inversion
    (reads : Reads valid read encode)
    (covers : Covers memory slice bytes)
    (result : read memory slice = .ok (value, next)) :
    ∃ rest, valid value ∧ bytes = encode value ++ rest ∧
      next = slice.advance (encode value).length ∧
      Covers memory next rest := by
  by_cases encoded : ∃ other rest, valid other ∧ bytes = encode other ++ rest
  · obtain ⟨other, rest, otherValid, rfl⟩ := encoded
    have accepted := reads.accept otherValid covers
    rw [result] at accepted
    cases accepted
    exact ⟨rest, otherValid, rfl, rfl, covers.advance⟩
  · have refused := reads.reject covers fun other rest otherValid equal =>
      encoded ⟨other, rest, otherValid, equal⟩
    rw [result] at refused
    cases refused

/-- No encoding is the front of another one. -/
theorem unique
    (reads : Reads valid read encode)
    (leftValid : valid left)
    (rightValid : valid right)
    (equal : encode left ++ rest = encode right ++ otherRest) :
    left = right ∧ rest = otherRest := by
  have covers := Covers.whole (encode left ++ rest)
  have leftRead := reads.accept leftValid covers
  have rightCovers : Covers (encode left ++ rest)
      ⟨some 0, (encode left ++ rest).length⟩ (encode right ++ otherRest) :=
    equal ▸ covers
  rw [reads.accept rightValid rightCovers] at leftRead
  cases leftRead
  exact ⟨rfl, List.append_cancel_left equal⟩

/-- Two readers in sequence whose values are joined into one: the joined
value takes apart into what was read. -/
theorem combine
    {secondValid : β → Prop}
    {readSecond : List UInt8 → Slice → Run Unit (β × Slice)}
    {encodeSecond : β → List UInt8}
    {jointValid : γ → Prop} {encodeJoint : γ → List UInt8}
    (first : Reads valid read encode)
    (second : Reads secondValid readSecond encodeSecond)
    (join : α → β → γ) (left : γ → α) (right : γ → β)
    (parts : ∀ value, jointValid value →
      valid (left value) ∧ secondValid (right value) ∧
        join (left value) (right value) = value)
    (joined : ∀ a b, valid a → secondValid b →
      jointValid (join a b) ∧ left (join a b) = a ∧ right (join a b) = b)
    (encodes : ∀ value, jointValid value →
      encodeJoint value = encode (left value) ++ encodeSecond (right value)) :
    Reads jointValid
      (fun memory slice => do
        let (a, slice) ← read memory slice
        let (b, slice) ← readSecond memory slice
        pure (join a b, slice))
      encodeJoint where
  accept := by
    intro memory slice value rest valueValid covers
    obtain ⟨leftValid, rightValid, joinEq⟩ := parts value valueValid
    rw [encodes value valueValid, List.append_assoc] at covers
    rw [first.accept leftValid covers, Run.bind_ok]
    simp only
    rw [second.accept rightValid covers.advance, Run.bind_ok]
    simp only [joinEq, encodes value valueValid, Slice.advance_advance,
      List.length_append]
    rfl
  reject := by
    intro memory slice bytes covers absent
    by_cases firstEncoded : ∃ a rest, valid a ∧ bytes = encode a ++ rest
    · obtain ⟨a, rest, aValid, rfl⟩ := firstEncoded
      rw [first.accept aValid covers, Run.bind_ok]
      simp only
      rw [second.reject covers.advance, Run.bind_error]
      rintro b tail bValid rfl
      obtain ⟨jointly, leftEq, rightEq⟩ := joined a b aValid bValid
      refine absent (join a b) tail jointly ?_
      rw [encodes _ jointly, leftEq, rightEq, List.append_assoc]
    · rw [first.reject covers, Run.bind_error]
      intro a rest aValid equal
      exact firstEncoded ⟨a, rest, aValid, equal⟩

end Reads

/-- Any value is valid. -/
abbrev anyValue : α → Prop := fun _ => True

def u16Bytes (value : UInt16) : List UInt8 :=
  [(value >>> 8).toUInt8, value.toUInt8]

def u32Bytes (value : UInt32) : List UInt8 :=
  u16Bytes (value >>> 16).toUInt16 ++ u16Bytes value.toUInt16

def u64Bytes (value : UInt64) : List UInt8 :=
  u32Bytes (value >>> 32).toUInt32 ++ u32Bytes value.toUInt32

@[simp] theorem u16Bytes_length (value : UInt16) :
    (u16Bytes value).length = 2 := rfl

@[simp] theorem u32Bytes_length (value : UInt32) :
    (u32Bytes value).length = 4 := rfl

@[simp] theorem u64Bytes_length (value : UInt64) :
    (u64Bytes value).length = 8 := rfl

/-- Shifting one half up and or-ing in the other adds them. -/
theorem shiftLeft_or_eq
    (width : Nat)
    (highLt : high < 2 ^ width)
    (lowLt : low < 2 ^ width) :
    (high <<< width) % 2 ^ (width + width) ||| low =
      high * 2 ^ width + low := by
  have fits : high <<< width < 2 ^ (width + width) := by
    rw [Nat.shiftLeft_eq, Nat.pow_add]
    exact Nat.mul_lt_mul_of_pos_right highLt (Nat.two_pow_pos width)
  rw [Nat.mod_eq_of_lt fits, ← Nat.shiftLeft_add_eq_or_of_lt lowLt,
    Nat.shiftLeft_eq]

theorem toNat_joinU16 (a b : UInt8) :
    ((a.toUInt16 <<< 8) ||| b.toUInt16).toNat =
      a.toNat * 2 ^ 8 + b.toNat := by
  rw [UInt16.toNat_or, UInt16.toNat_shiftLeft, UInt8.toNat_toUInt16,
    UInt8.toNat_toUInt16]
  exact shiftLeft_or_eq 8 a.toNat_lt b.toNat_lt

theorem toNat_joinU32 (a b : UInt16) :
    ((a.toUInt32 <<< 16) ||| b.toUInt32).toNat =
      a.toNat * 2 ^ 16 + b.toNat := by
  rw [UInt32.toNat_or, UInt32.toNat_shiftLeft, UInt16.toNat_toUInt32,
    UInt16.toNat_toUInt32]
  exact shiftLeft_or_eq 16 a.toNat_lt b.toNat_lt

theorem toNat_joinU64 (a b : UInt32) :
    ((a.toUInt64 <<< 32) ||| b.toUInt64).toNat =
      a.toNat * 2 ^ 32 + b.toNat := by
  rw [UInt64.toNat_or, UInt64.toNat_shiftLeft, UInt32.toNat_toUInt64,
    UInt32.toNat_toUInt64]
  exact shiftLeft_or_eq 32 a.toNat_lt b.toNat_lt

theorem readU8_reads : Reads anyValue readU8 (fun byte => [byte]) where
  accept := by
    intro memory slice value rest _ covers
    have sub := covers.readSubBuffer_eq
    have loaded := covers.leading.load_eq (ε := Unit)
    unfold readU8
    simp only [List.length_singleton] at sub loaded
    rw [sub, Run.bind_ok]
    simp only
    rw [loaded, Run.bind_ok]
    rfl
  reject := by
    intro memory slice bytes covers absent
    have empty : bytes = [] := by
      cases bytes with
      | nil => rfl
      | cons byte rest => exact absurd rfl (absent byte rest trivial)
    unfold readU8
    rw [covers.readSubBuffer_short (by rw [empty]; decide), Run.bind_error]

/-- Every byte is read as a truth value. -/
theorem readBool_eq (covers : Covers memory slice ([byte] ++ rest)) :
    readBool memory slice = .ok (byte != 0, slice.advance 1) := by
  unfold readBool
  rw [readU8_reads.accept trivial covers, Run.bind_ok]
  rfl

/-- A truth value that was read is a byte. -/
theorem readBool_inversion
    (covers : Covers memory slice bytes)
    (result : readBool memory slice = .ok (value, next)) :
    ∃ byte rest, value = (byte != 0) ∧ bytes = [byte] ++ rest ∧
      next = slice.advance 1 ∧ Covers memory next rest := by
  unfold readBool at result
  obtain ⟨⟨byte, after⟩, readByte, result⟩ := Run.bind_eq_ok.mp result
  obtain ⟨rest, _, split, afterEq, covers⟩ :=
    readU8_reads.inversion covers readByte
  cases result
  exact ⟨byte, rest, rfl, split, afterEq, covers⟩

theorem readU16_reads : Reads anyValue readU16 u16Bytes := by
  refine readU8_reads.combine readU8_reads
    (fun a b => (a.toUInt16 <<< 8) ||| b.toUInt16)
    (fun value => (value >>> 8).toUInt8)
    (fun value => value.toUInt8) ?_ ?_ (fun _ _ => rfl)
  · intro value _
    refine ⟨trivial, trivial, UInt16.toNat_inj.mp ?_⟩
    have bound := value.toNat_lt
    rw [toNat_joinU16]
    simp [Nat.shiftRight_eq_div_pow]
    omega
  · intro a b _ _
    have aLt := a.toNat_lt
    have bLt := b.toNat_lt
    refine ⟨trivial, UInt8.toNat_inj.mp ?_, UInt8.toNat_inj.mp ?_⟩
    · rw [UInt16.toNat_toUInt8, UInt16.toNat_shiftRight, toNat_joinU16]
      simp [Nat.shiftRight_eq_div_pow]
      omega
    · rw [UInt16.toNat_toUInt8, toNat_joinU16]
      omega

theorem readU32_reads : Reads anyValue readU32 u32Bytes := by
  refine readU16_reads.combine readU16_reads
    (fun a b => (a.toUInt32 <<< 16) ||| b.toUInt32)
    (fun value => (value >>> 16).toUInt16)
    (fun value => value.toUInt16) ?_ ?_ (fun _ _ => rfl)
  · intro value _
    refine ⟨trivial, trivial, UInt32.toNat_inj.mp ?_⟩
    have bound := value.toNat_lt
    rw [toNat_joinU32]
    simp [Nat.shiftRight_eq_div_pow]
    omega
  · intro a b _ _
    have aLt := a.toNat_lt
    have bLt := b.toNat_lt
    refine ⟨trivial, UInt16.toNat_inj.mp ?_, UInt16.toNat_inj.mp ?_⟩
    · rw [UInt32.toNat_toUInt16, UInt32.toNat_shiftRight, toNat_joinU32]
      simp [Nat.shiftRight_eq_div_pow]
      omega
    · rw [UInt32.toNat_toUInt16, toNat_joinU32]
      omega

theorem readU64_reads : Reads anyValue readU64 u64Bytes := by
  refine readU32_reads.combine readU32_reads
    (fun a b => (a.toUInt64 <<< 32) ||| b.toUInt64)
    (fun value => (value >>> 32).toUInt32)
    (fun value => value.toUInt32) ?_ ?_ (fun _ _ => rfl)
  · intro value _
    refine ⟨trivial, trivial, UInt64.toNat_inj.mp ?_⟩
    have bound := value.toNat_lt
    rw [toNat_joinU64]
    simp [Nat.shiftRight_eq_div_pow]
    omega
  · intro a b _ _
    have aLt := a.toNat_lt
    have bLt := b.toNat_lt
    refine ⟨trivial, UInt32.toNat_inj.mp ?_, UInt32.toNat_inj.mp ?_⟩
    · rw [UInt64.toNat_toUInt32, UInt64.toNat_shiftRight, toNat_joinU64]
      simp [Nat.shiftRight_eq_div_pow]
      omega
    · rw [UInt64.toNat_toUInt32, toNat_joinU64]
      omega

/-- A path the app accepts has one to ten entries. -/
def ValidPath (path : List UInt32) : Prop :=
  1 ≤ path.length ∧ path.length ≤ maxBip32PathLength.toNat

instance (path : List UInt32) : Decidable (ValidPath path) :=
  inferInstanceAs (Decidable (_ ∧ _))

/-- A path on the wire: its length and its entries. -/
def bip32PathBytes (path : List UInt32) : List UInt8 :=
  UInt8.ofNat path.length :: path.flatMap u32Bytes

theorem readBip32PathEntries_reads (count : Nat) :
    Reads (fun path => path.length = count)
      (fun memory => readBip32PathEntries memory count)
      (fun path => path.flatMap u32Bytes) := by
  induction count with
  | zero =>
      constructor
      · intro memory slice path rest pathValid covers
        rw [List.length_eq_zero_iff.mp pathValid]
        simp [readBip32PathEntries]
      · intro memory slice bytes covers absent
        exact absurd rfl (absent [] bytes rfl)
  | succ count inductionHypothesis =>
      refine readU32_reads.combine inductionHypothesis List.cons
        (fun path => path.headD 0) List.tail ?_ ?_ ?_
      · rintro (_ | ⟨entry, path⟩) pathLength
        · simp at pathLength
        · exact ⟨trivial, by simpa using pathLength, rfl⟩
      · intro entry path _ pathLength
        exact ⟨by simpa using pathLength, rfl, rfl⟩
      · rintro (_ | ⟨entry, path⟩) pathLength
        · simp at pathLength
        · rfl

theorem readBip32Path_reads :
    Reads ValidPath readBip32Path bip32PathBytes where
  accept := by
    intro memory slice path rest pathValid covers
    obtain ⟨positive, bounded⟩ := pathValid
    have fits : path.length < 256 := by
      have limit : maxBip32PathLength.toNat = 10 := rfl
      omega
    have lengthByte : (UInt8.ofNat path.length).toNat = path.length :=
      UInt8.toNat_ofNat_of_lt' fits
    have atLength : Covers memory slice
        ([UInt8.ofNat path.length] ++ (path.flatMap u32Bytes ++ rest)) := covers
    unfold readBip32Path
    rw [readU8_reads.accept trivial atLength, Run.bind_ok]
    simp only
    rw [Run.returnOn_of_not, Run.bind_ok, lengthByte,
      (readBip32PathEntries_reads path.length).accept rfl atLength.advance]
    · simp [bip32PathBytes, Nat.add_comm]
    · rw [UInt8.lt_iff_toNat_lt, gt_iff_lt, UInt8.lt_iff_toNat_lt, lengthByte]
      have one : (1 : UInt8).toNat = 1 := rfl
      omega
  reject := by
    intro memory slice bytes covers absent
    unfold readBip32Path
    cases bytes with
    | nil =>
        rw [readU8_reads.reject covers (by simp), Run.bind_error]
    | cons lengthByte rest =>
        have atLength : Covers memory slice ([lengthByte] ++ rest) := covers
        rw [readU8_reads.accept trivial atLength, Run.bind_ok]
        simp only
        by_cases outside : lengthByte < 1 ∨ lengthByte > maxBip32PathLength
        · rw [Run.returnOn, if_pos outside]
          rfl
        · rw [Run.returnOn_of_not outside, Run.bind_ok,
            (readBip32PathEntries_reads lengthByte.toNat).reject
              atLength.advance]
          rintro path tail pathLength rfl
          rw [UInt8.lt_iff_toNat_lt, gt_iff_lt,
            UInt8.lt_iff_toNat_lt] at outside
          have one : (1 : UInt8).toNat = 1 := rfl
          refine absent path tail ⟨by omega, by omega⟩ ?_
          simp [bip32PathBytes, pathLength]

/-- The continuation bit is the highest one. -/
theorem continuationBit_eq_zero_iff (byte : UInt8) :
    byte &&& 0x80 = 0 ↔ byte.toNat < 128 := by
  have bound := byte.toNat_lt
  have highest : byte.toNat.testBit 7 = decide (128 ≤ byte.toNat) := by
    rw [Nat.testBit_eq_decide_div_mod_eq, decide_eq_decide]
    omega
  rw [← UInt8.toNat_inj, UInt8.toNat_and]
  change byte.toNat &&& 2 ^ 7 = 0 ↔ _
  constructor
  · intro isZero
    have bit := congrArg (Nat.testBit · 7) isZero
    simp only [Nat.testBit_and, highest, Nat.testBit_two_pow_self,
      Bool.and_true, Nat.zero_testBit, decide_eq_false_iff_not] at bit
    omega
  · intro small
    apply Nat.eq_of_testBit_eq
    intro index
    rw [Nat.testBit_and, Nat.testBit_two_pow, Nat.zero_testBit]
    by_cases isHighest : 7 = index
    · subst isHighest
      rw [highest, decide_eq_false (by omega)]
      rfl
    · rw [decide_eq_false isHighest, Bool.and_false]

theorem toNat_toUInt32_toUInt16 (byte : UInt8) :
    byte.toUInt32.toUInt16.toNat = byte.toNat := by
  have bound := byte.toNat_lt
  rw [UInt32.toNat_toUInt16, UInt8.toNat_toUInt32, Nat.mod_eq_of_lt]
  omega

/-- A short vector behind its length is read. -/
theorem readSerdeVecU8_accept
    (covers : Covers memory slice
      ([UInt8.ofNat vector.length] ++ (vector ++ rest)))
    (short : vector.length < 128) :
    ∃ data next, readSerdeVecU8 memory slice = .ok (data, next) ∧
      Covers memory data vector ∧ Covers memory next rest := by
  have lengthByte : (UInt8.ofNat vector.length).toNat = vector.length :=
    UInt8.toNat_ofNat_of_lt' (Nat.lt_trans short (by decide))
  have noContinuation : UInt8.ofNat vector.length &&& 0x80 = 0 := by
    rw [continuationBit_eq_zero_iff, lengthByte]
    exact short
  obtain ⟨pointer, next, readData, dataCovers, restCovers⟩ :=
    covers.advance.readSubBuffer_accept rfl
  refine ⟨⟨pointer, vector.length⟩, next, ?_, dataCovers, restCovers⟩
  unfold readSerdeVecU8 readSerdeUvarint
  rw [Run.returnOn_of_not (by decide), Run.bind_ok,
    readU8_reads.accept trivial covers, Run.bind_ok]
  simp only
  rw [Run.returnOn_of_not (Decidable.not_not.mpr noContinuation), Run.bind_ok,
    Run.pure_eq, Run.bind_ok]
  simp only [toNat_toUInt32_toUInt16, lengthByte]
  rw [readData, Run.bind_ok]
  rfl

/-- What is read as a vector is a short vector behind its length. -/
theorem readSerdeVecU8_inversion
    (covers : Covers memory slice bytes)
    (result : readSerdeVecU8 memory slice = .ok (data, next)) :
    ∃ vector rest, vector.length < 128 ∧
      bytes = [UInt8.ofNat vector.length] ++ (vector ++ rest) ∧
      Covers memory data vector ∧ Covers memory next rest := by
  unfold readSerdeVecU8 readSerdeUvarint at result
  obtain ⟨⟨dataLength, _⟩, readLength, result⟩ := Run.bind_eq_ok.mp result
  obtain ⟨⟨pointer, _⟩, readData, result⟩ := Run.bind_eq_ok.mp result
  obtain ⟨_, _, readLength⟩ := Run.bind_eq_ok.mp readLength
  obtain ⟨⟨byte, _⟩, readByte, readLength⟩ := Run.bind_eq_ok.mp readLength
  obtain ⟨_, noContinuation, readLength⟩ := Run.bind_eq_ok.mp readLength
  cases readLength
  cases result
  obtain ⟨_, _, rfl, rfl, behind⟩ := readU8_reads.inversion covers readByte
  obtain ⟨vector, rest, rfl, size, _, _, dataCovers, restCovers⟩ :=
    behind.readSubBuffer_inversion readData
  rw [toNat_toUInt32_toUInt16] at size
  have short := (continuationBit_eq_zero_iff byte).mp
    (Decidable.not_not.mp (Run.returnOn_eq_ok.mp noContinuation))
  refine ⟨vector, rest, size ▸ short, ?_, dataCovers, restCovers⟩
  rw [size, UInt8.ofNat_toNat]

end NimiqApp
