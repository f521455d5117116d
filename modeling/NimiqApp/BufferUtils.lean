import Mathlib.Algebra.Group.Nat.Defs
import NimiqApp.Errors

/-!
# Buffer utils

The `read_*` functions of `nimiq_utils.c`: a buffer is a pointer into the
memory being parsed together with the number of bytes left.  Reading through
a pointer is checked, so that a null pointer or a byte outside the memory is
a fault.  `Covers` relates a buffer to the bytes it stands for, and `Reads`
says that a reader accepts exactly the encodings of its values.
-/

namespace NimiqApp

/-- A pointer into the memory being parsed; `none` is `NULL`. -/
abbrev Pointer := Option Nat

/-- `in_out_buffer` and `in_out_buffer_length`. -/
structure Slice where
  pointer : Pointer
  length : Nat
  deriving DecidableEq, Repr

namespace Slice

/-- The buffer after `count` bytes. -/
def advance (slice : Slice) (count : Nat) : Slice where
  pointer := slice.pointer.map (· + count)
  length := slice.length - count

/-- The first `count` bytes; no bytes have a null pointer. -/
def leading (slice : Slice) (count : Nat) : Slice where
  pointer := if count = 0 then none else slice.pointer
  length := count

@[simp] theorem advance_length (slice : Slice) (count : Nat) :
    (slice.advance count).length = slice.length - count := rfl

@[simp] theorem advance_zero (slice : Slice) : slice.advance 0 = slice := by
  rcases slice with ⟨_ | offset, length⟩ <;> rfl

@[simp] theorem advance_advance (slice : Slice) (first second : Nat) :
    (slice.advance first).advance second =
      slice.advance (first + second) := by
  rcases slice with ⟨_ | offset, length⟩
  · simp [advance, Nat.sub_sub]
  · simp [advance, Nat.sub_sub, Nat.add_assoc]

end Slice

/-- Read `count` bytes through a pointer. -/
def load (memory : List UInt8) (pointer : Pointer) (count : Nat) :
    Run ε (List UInt8) :=
  if count = 0 then pure []
  else
    match pointer with
    | none => Run.fault .nullPointer
    | some offset =>
        if offset + count ≤ memory.length then
          pure ((memory.drop offset).take count)
        else Run.fault .outOfBounds

/-- `read_sub_buffer`, returning the pointer to the leading part. -/
def readSubBuffer (count : Nat) (slice : Slice) :
    Run Unit (Pointer × Slice) :=
  if count = 0 then pure (none, slice)
  else
    match slice.pointer with
    | none => Run.fail ()
    | some offset =>
        if slice.length < count then Run.fail ()
        else pure (some offset, slice.advance count)

/-- `read_u8`. -/
def readU8 (memory : List UInt8) (slice : Slice) :
    Run Unit (UInt8 × Slice) := do
  let (pointer, slice) ← readSubBuffer 1 slice
  let bytes ← load memory pointer 1
  pure (bytes.headD 0, slice)

/-- `read_u16`. -/
def readU16 (memory : List UInt8) (slice : Slice) :
    Run Unit (UInt16 × Slice) := do
  let (a, slice) ← readU8 memory slice
  let (b, slice) ← readU8 memory slice
  pure ((a.toUInt16 <<< 8) ||| b.toUInt16, slice)

/-- `read_u32`. -/
def readU32 (memory : List UInt8) (slice : Slice) :
    Run Unit (UInt32 × Slice) := do
  let (a, slice) ← readU16 memory slice
  let (b, slice) ← readU16 memory slice
  pure ((a.toUInt32 <<< 16) ||| b.toUInt32, slice)

/-- `read_u64`. -/
def readU64 (memory : List UInt8) (slice : Slice) :
    Run Unit (UInt64 × Slice) := do
  let (a, slice) ← readU32 memory slice
  let (b, slice) ← readU32 memory slice
  pure ((a.toUInt64 <<< 32) ||| b.toUInt64, slice)

/-- `read_bool`: every byte but zero is true. -/
def readBool (memory : List UInt8) (slice : Slice) :
    Run Unit (Bool × Slice) := do
  let (value, slice) ← readU8 memory slice
  pure (value != 0, slice)

/-- `read_serde_uvarint`, which only reads single-byte varints. -/
def readSerdeUvarint (maxBits : UInt8) (memory : List UInt8) (slice : Slice) :
    Run Unit (UInt32 × Slice) := do
  Run.returnOn (maxBits < 7) ()
  let (byte, slice) ← readU8 memory slice
  let continuationBit := byte &&& 0x80
  Run.returnOn (continuationBit ≠ 0) ()
  pure (byte.toUInt32, slice)

/-- `read_serde_vec_u8`, returning the data and its length. -/
def readSerdeVecU8 (memory : List UInt8) (slice : Slice) :
    Run Unit (Slice × Slice) := do
  let (dataLength, slice) ← readSerdeUvarint 16 memory slice
  let (data, slice) ← readSubBuffer dataLength.toUInt16.toNat slice
  pure (⟨data, dataLength.toUInt16.toNat⟩, slice)

/-- The loop of `read_bip32_path` over the entries. -/
def readBip32PathEntries (memory : List UInt8) :
    Nat → Slice → Run Unit (List UInt32 × Slice)
  | 0, slice => pure ([], slice)
  | count + 1, slice => do
      let (entry, slice) ← readU32 memory slice
      let (entries, slice) ← readBip32PathEntries memory count slice
      pure (entry :: entries, slice)

/-- `read_bip32_path`, returning the entries up to the path length. -/
def readBip32Path (memory : List UInt8) (slice : Slice) :
    Run Unit (List UInt32 × Slice) := do
  let (pathLength, slice) ← readU8 memory slice
  Run.returnOn (pathLength < 1 ∨ pathLength > maxBip32PathLength) ()
  readBip32PathEntries memory pathLength.toNat slice

/-- The buffer consists of exactly these bytes of the memory. -/
structure Covers (memory : List UInt8) (slice : Slice)
    (bytes : List UInt8) : Prop where
  length_eq : slice.length = bytes.length
  null : slice.pointer = none → bytes = []
  within : ∀ offset, slice.pointer = some offset →
    ∃ rest, memory.drop offset = bytes ++ rest

namespace Covers

/-- A whole memory is covered from its start. -/
theorem whole (memory : List UInt8) :
    Covers memory ⟨some 0, memory.length⟩ memory where
  length_eq := rfl
  null := by simp
  within := by
    intro offset start
    cases start
    exact ⟨[], by simp⟩

/-- The data behind a header is covered. -/
theorem behind (header data rest : List UInt8) :
    Covers (header ++ data ++ rest) ⟨some header.length, data.length⟩
      data where
  length_eq := rfl
  null := by simp
  within := by
    intro offset start
    cases start
    exact ⟨rest, by rw [List.append_assoc, List.drop_left]⟩

/-- The bytes after the part read so far. -/
theorem advance (covers : Covers memory slice (front ++ rest)) :
    Covers memory (slice.advance front.length) rest where
  length_eq := by
    have total := covers.length_eq
    rw [List.length_append] at total
    rw [Slice.advance_length]
    omega
  null := by
    intro isNull
    have nothing : front ++ rest = [] :=
      covers.null (by simpa [Slice.advance] using isNull)
    exact (List.append_eq_nil_iff.mp nothing).2
  within := by
    intro offset atOffset
    obtain ⟨previous, previousEq, rfl⟩ :
        ∃ previous, slice.pointer = some previous ∧
          previous + front.length = offset := by
      simpa [Slice.advance] using atOffset
    obtain ⟨back, backEq⟩ := covers.within previous previousEq
    refine ⟨back, ?_⟩
    rw [← List.drop_drop, backEq, List.append_assoc, List.drop_left]

/-- The leading part of a buffer. -/
theorem leading (covers : Covers memory slice (front ++ rest)) :
    Covers memory (slice.leading front.length) front where
  length_eq := rfl
  null := by
    intro isNull
    by_cases empty : front.length = 0
    · exact List.length_eq_zero_iff.mp empty
    · have sliceNull : slice.pointer = none := by
        simpa [Slice.leading, empty] using isNull
      exact (List.append_eq_nil_iff.mp (covers.null sliceNull)).1
  within := by
    intro offset atOffset
    by_cases empty : front.length = 0
    · simp [Slice.leading, empty] at atOffset
    · have sliceAt : slice.pointer = some offset := by
        simpa [Slice.leading, empty] using atOffset
      obtain ⟨back, backEq⟩ := covers.within offset sliceAt
      exact ⟨rest ++ back, by rw [backEq, List.append_assoc]⟩

/-- A covered buffer that is not empty lies inside the memory. -/
theorem offset_add_le
    (covers : Covers memory slice bytes)
    (nonempty : bytes ≠ [])
    (atOffset : slice.pointer = some offset) :
    offset + bytes.length ≤ memory.length := by
  obtain ⟨rest, restEq⟩ := covers.within offset atOffset
  have lengths := congrArg List.length restEq
  rw [List.length_drop, List.length_append] at lengths
  have positive := List.length_pos_iff.mpr nonempty
  omega

/-- Reading a covered buffer yields its bytes. -/
theorem load_eq (covers : Covers memory slice bytes) :
    (load memory slice.pointer bytes.length : Run ε (List UInt8)) =
      .ok bytes := by
  unfold load
  split
  · rename_i empty
    rw [List.length_eq_zero_iff.mp empty]
    rfl
  · rename_i nonempty
    have bytesNonempty : bytes ≠ [] := by
      intro isEmpty
      exact nonempty (by rw [isEmpty]; rfl)
    cases pointerEq : slice.pointer with
    | none => exact absurd (covers.null pointerEq) bytesNonempty
    | some offset =>
        obtain ⟨rest, restEq⟩ := covers.within offset pointerEq
        simp only
        rw [if_pos (covers.offset_add_le bytesNonempty pointerEq), restEq,
          List.take_left]
        rfl

/-- A part that is there is read as a sub buffer. -/
theorem readSubBuffer_eq (covers : Covers memory slice (front ++ rest)) :
    readSubBuffer front.length slice =
      .ok ((slice.leading front.length).pointer,
        slice.advance front.length) := by
  unfold readSubBuffer
  split
  · rename_i empty
    simp [Slice.leading, empty]
  · rename_i nonempty
    cases pointerEq : slice.pointer with
    | none =>
        have nothing := (List.append_eq_nil_iff.mp
          (covers.null pointerEq)).1
        exact absurd (by rw [nothing]; rfl) nonempty
    | some offset =>
        have total := covers.length_eq
        rw [List.length_append] at total
        simp only
        rw [if_neg (by omega)]
        simp [Slice.leading, nonempty, pointerEq]

/-- A part longer than the buffer is refused. -/
theorem readSubBuffer_short
    (covers : Covers memory slice bytes)
    (short : bytes.length < count) :
    readSubBuffer count slice = .error (.error ()) := by
  unfold readSubBuffer
  rw [if_neg (by omega)]
  cases slice.pointer with
  | none => rfl
  | some offset =>
      simp only
      rw [if_pos (by rw [covers.length_eq]; exact short)]
      rfl

/-- A part that is there is read, and the rest remains. -/
theorem readSubBuffer_accept
    (covers : Covers memory slice (front ++ rest))
    (size : front.length = count) :
    ∃ pointer next, readSubBuffer count slice = .ok (pointer, next) ∧
      Covers memory ⟨pointer, count⟩ front ∧ Covers memory next rest := by
  subst size
  exact ⟨_, _, covers.readSubBuffer_eq, covers.leading, covers.advance⟩

/-- Reading through the pointer of a part yields the part. -/
theorem load_sub (covers : Covers memory ⟨pointer, count⟩ bytes) :
    (load memory pointer count : Run ε (List UInt8)) = .ok bytes := by
  have loaded := covers.load_eq (ε := ε)
  rwa [← covers.length_eq] at loaded

/-- The pointer to a buffer is one to its front. -/
theorem front
    (covers : Covers memory slice bytes)
    (short : count ≤ bytes.length) :
    Covers memory ⟨slice.pointer, count⟩ (bytes.take count) where
  length_eq := (List.length_take_of_le short).symm
  null := by
    intro isNull
    rw [covers.null isNull, List.take_nil]
  within := by
    intro offset atOffset
    obtain ⟨rest, restEq⟩ := covers.within offset atOffset
    refine ⟨bytes.drop count ++ rest, ?_⟩
    rw [restEq, ← List.append_assoc, List.take_append_drop]

/-- A sub buffer that was read is the front of the buffer. -/
theorem readSubBuffer_inversion
    (covers : Covers memory slice bytes)
    (result : readSubBuffer count slice = .ok (pointer, next)) :
    ∃ front rest, bytes = front ++ rest ∧ front.length = count ∧
      pointer = (slice.leading count).pointer ∧ next = slice.advance count ∧
      Covers memory ⟨pointer, count⟩ front ∧ Covers memory next rest := by
  by_cases short : bytes.length < count
  · rw [covers.readSubBuffer_short short] at result
    cases result
  · have lengths : (bytes.take count).length = count := by
      rw [List.length_take]
      omega
    have split : bytes = bytes.take count ++ bytes.drop count :=
      (List.take_append_drop count bytes).symm
    rw [split] at covers
    have accepted := covers.readSubBuffer_eq
    rw [lengths, result] at accepted
    cases accepted
    have front := covers.leading
    have rest := covers.advance
    rw [lengths] at front rest
    exact ⟨_, _, split, lengths, rfl, rfl, front, rest⟩

end Covers

/-- A load has the length that was asked for. -/
theorem load_length
    (loaded : (load memory pointer count : Run ε _) = .ok bytes) :
    bytes.length = count := by
  unfold load at loaded
  split at loaded
  · rename_i none
    cases loaded
    exact none.symm
  · split at loaded
    · cases loaded
    · split at loaded
      · cases loaded
        rw [List.length_take, List.length_drop]
        omega
      · cases loaded

end NimiqApp
