import NimiqApp.Address

/-!
# The device

What the app relies on and does not compute itself.  Sizes of byte strings
are part of their types.
-/

namespace NimiqApp

/-- Byte strings of a fixed length. -/
abbrev Bytes (length : Nat) :=
  { bytes : List UInt8 // bytes.length = length }

/-- The device under the parser. -/
structure Device where
  /-- The byte behind the array `total_number` of `iban_check`. -/
  pastTotalNumber : UInt8
  /-- BLAKE2b with a digest of 256 bits, if the device computes it. -/
  blake2b : List UInt8 → Option (Bytes 32)

namespace Device

/-- The address of a public key: the front of its hash. -/
def address (device : Device) (publicKey : List UInt8) : Option (Bytes 20) :=
  (device.blake2b publicKey).map fun hash =>
    ⟨hash.val.take 20, by rw [List.length_take, hash.property]; rfl⟩

end Device

/-- `public_key_to_address`. -/
def publicKeyToAddress (device : Device) (publicKey : List UInt8) :
    Run ErrorCode (Bytes 20) :=
  match device.address publicKey with
  | some address => pure address
  | none => Run.fail .cryptography

/-- `print_public_key_as_address`. -/
def printPublicKeyAsAddress (device : Device) (publicKey : List UInt8) :
    Run ErrorCode CString := do
  let address ← publicKeyToAddress device publicKey
  printAddress device.pastTotalNumber address.val

theorem publicKeyToAddress_eq_ok :
    publicKeyToAddress device publicKey = .ok address ↔
      device.address publicKey = some address := by
  unfold publicKeyToAddress
  cases device.address publicKey with
  | none => simp
  | some other => simp

end NimiqApp
