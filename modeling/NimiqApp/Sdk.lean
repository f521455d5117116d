import NimiqApp.Device
import NimiqApp.BufferUtils
import NimiqApp.Text

/-!
# The cryptography of the device

The functions of the SDK with which keys are derived, data is signed and
messages are hashed.  They may fail; what they compute is left open.
-/

namespace NimiqApp

/-- The device under the app. -/
structure Sdk extends Device where
  PrivateKey : Type
  /-- Derivation of a private key for a path, by
  `os_derive_bip32_with_seed_no_throw` and
  `cx_ecfp_init_private_key_no_throw`. -/
  derivePrivateKey : List UInt32 → Option PrivateKey
  /-- `cx_ecfp_generate_pair_no_throw`, with the coordinates `W`. -/
  generatePair : PrivateKey → Option (Bytes 65)
  /-- `cx_eddsa_sign_no_throw`. -/
  eddsaSign : PrivateKey → List UInt8 → Option (Bytes 64)
  /-- Where the coordinates of a temporary public key are in the APDU buffer;
  this depends on the alignment of the buffer. -/
  temporaryCoordinates : Nat
  /-- The temporary public key fits the APDU buffer. -/
  temporaryCoordinates_fits : temporaryCoordinates + 65 ≤ 260
  /-- `cx_sha256_t`. -/
  HashContext : Type
  /-- `cx_sha256_init`, whatever was in the memory before. -/
  sha256Init : HashContext
  /-- `cx_hash_update`. -/
  hashUpdate : HashContext → List UInt8 → Option HashContext
  /-- `cx_hash_final`, with the context it leaves behind. -/
  hashFinal : HashContext → Option (HashContext × Bytes 32)

/-- A call of a cryptographic function, as all of its callers check it. -/
def cryptography : Option α → Run StatusWord α
  | some value => pure value
  | none => Run.fail .cryptographyFail

@[simp] theorem cryptography_some (value : α) :
    cryptography (some value) = .ok value := rfl

@[simp] theorem cryptography_none :
    cryptography (none : Option α) = .error (.error .cryptographyFail) := rfl

theorem cryptography_eq_ok {call : Option α} :
    cryptography call = .ok value ↔ call = some value := by
  cases call with
  | none => simp
  | some other => simp

/-- The copy of a public key from little to big endian, with the sign of the
other coordinate. -/
def copyPublicKey (W : List UInt8) : Bytes 32 :=
  let publicKey := (List.range 32).map fun i => W.getD (64 - i) 0
  if W.getD 32 0 &&& 1 ≠ 0 then
    ⟨publicKey.set 31 (publicKey.getD 31 0 ||| 0x80), by simp [publicKey]⟩
  else ⟨publicKey, by simp [publicKey]⟩

namespace Bytes

/-- Overwrite a part of an array of fixed length. -/
def store (array : Bytes size) (offset : Nat) (bytes : List UInt8) :
    Run ε (Bytes size) :=
  if fits : offset + bytes.length ≤ size then
    pure ⟨overwrite array.val offset bytes, by
      rw [overwrite_length (by rw [array.property]; exact fits),
        array.property]⟩
  else Run.fault .outOfBounds

/-- Overwrite a part of an array through a pointer. -/
def storeThrough (array : Bytes size) (pointer : Pointer)
    (bytes : List UInt8) : Run ε (Bytes size) :=
  match pointer with
  | none => Run.fault .nullPointer
  | some offset => array.store offset bytes

/-- A store inside the array succeeds. -/
theorem store_eq
    (array : Bytes size)
    (offset : Nat)
    (bytes : List UInt8)
    (fits : offset + bytes.length ≤ size) :
    ∃ stored, (array.store offset bytes : Run ε (Bytes size)) = .ok stored ∧
      stored.val = overwrite array.val offset bytes := by
  unfold store
  rw [dif_pos fits]
  exact ⟨_, rfl, rfl⟩

/-- A store right behind the front of the array extends the front. -/
theorem store_append
    {array : Bytes size}
    (front : array.val = collected ++ behind)
    (fits : (collected ++ bytes).length ≤ size) :
    ∃ stored rest,
      (array.store collected.length bytes : Run ε (Bytes size)) =
          .ok stored ∧
        stored.val = collected ++ bytes ++ rest := by
  rw [List.length_append] at fits
  have room : bytes.length ≤ behind.length := by
    have total := congrArg List.length front
    rw [array.property, List.length_append] at total
    omega
  obtain ⟨stored, result, storedEq⟩ :=
    array.store_eq (ε := ε) collected.length bytes fits
  refine ⟨stored, behind.drop bytes.length, result, ?_⟩
  rw [storedEq, front, ← List.take_append_drop bytes.length behind,
    overwrite_append collected bytes _ _ (List.length_take_of_le room),
    List.append_assoc]
  simp

/-- A store that succeeds is inside the array. -/
theorem store_inversion
    {array : Bytes size}
    (result : (array.store offset bytes : Run ε (Bytes size)) = .ok stored) :
    offset + bytes.length ≤ size ∧
      stored.val = overwrite array.val offset bytes := by
  unfold store at result
  split at result
  · rename_i fits
    cases result
    exact ⟨fits, rfl⟩
  · cases result

/-- What was stored is loaded again. -/
theorem store_load
    {array : Bytes size}
    (result : (array.store offset bytes : Run ε (Bytes size)) = .ok stored) :
    (load stored.val (some offset) bytes.length : Run ε' _) = .ok bytes := by
  obtain ⟨fits, storedEq⟩ := store_inversion result
  have place : (array.val.take offset).length = offset := by
    rw [List.length_take, array.property]
    omega
  have covers := Covers.behind (array.val.take offset) bytes
    (array.val.drop (offset + bytes.length))
  rw [place] at covers
  rw [storedEq]
  exact covers.load_sub

end Bytes
end NimiqApp
